/-
  NetconfClient/Host/Configuration.lean
  =====================================
  **The ssh configuration file.**

  A file is read line by line.  A line is trimmed, cut at the first `#` and
  split into words; the first word is a keyword in any case of letters.  `Host`
  opens a block with patterns, what stands before it is a block for every host.
  In a block the last line with a keyword counts; of the blocks that apply to a
  host, the first one that says something about a keyword does.

  Keywords that are not known are passed over.  One line that is not understood
  makes the whole file unusable.
-/
import NetconfClient.Host.Parameters
import NetconfClient.Text.Blank
import NetconfClient.Text.Unsigned
import NetconfClient.Text.Utf8
import NetconfClient.Text.Wildcard

namespace NetconfClient

open Text

/-! ## 1. Patterns and blocks -/

/-- One of the patterns behind `Host`. -/
structure HostPattern where
  wildcard : List Char
  /-- A host that the pattern fits is left out of the block. -/
  negated : Bool
  deriving DecidableEq, Repr

/-- A pattern as it is written.  With exactly one `!` it is negated, by what stands
    behind that. -/
def HostPattern.ofWord (word : List Char) : HostPattern :=
  match word.splitOn '!' with
  | [_, wildcard] => ⟨wildcard, true⟩
  | wildcard :: _ => ⟨wildcard, false⟩
  | [] => ⟨[], false⟩

/-- What a file says about the hosts that some patterns fit. -/
structure HostBlock where
  patterns : List HostPattern
  parameters : Parameters
  deriving DecidableEq, Repr

/-- Whether a block is about a host. -/
def HostBlock.appliesTo (block : HostBlock) (host : String) : Bool :=
  let fitting := block.patterns.filter fun p => Wildcard.fits p.wildcard host.toList
  !fitting.isEmpty && fitting.all (!·.negated)

/-- The blocks of a file, in their order. -/
structure HostConfiguration where
  blocks : List HostBlock
  deriving DecidableEq, Repr

/-- What a configuration says about a host. -/
def HostConfiguration.query (configuration : HostConfiguration) (host : String) : Parameters :=
  (configuration.blocks.filter (·.appliesTo host)).foldl
    (fun parameters block => parameters.orElse block.parameters) .empty

/-! ## 2. Lines -/

/-- Why a file is unusable. -/
inductive ConfigurationError where
  | expectedBoolean
  | expectedPort
  | expectedUnsigned
  | missingArgument
  /-- A line is not UTF-8. -/
  | notText
  deriving DecidableEq, Repr

/-- The wording of each cause. -/
def ConfigurationError.message : ConfigurationError → String
  | expectedBoolean => "expected boolean value ('yes', 'no')"
  | expectedPort => "expected port number"
  | expectedUnsigned => "expected unsigned value"
  | missingArgument => "missing argument"
  | notText => "IO error: stream did not contain valid UTF-8"

/-- The words of a text. -/
def wordsOf (cs : List Char) : List String :=
  ((cs.splitOnP isBlank).filter (· ≠ [])).map String.ofList

/-- The words of a line, without its comment. -/
def wordsOfLine (line : List Char) : List String :=
  wordsOf ((trim line).takeWhile (· ≠ '#'))

/-! ## 3. Values -/

namespace ConfigurationValue

/-- The first word. -/
def word : List String → Except ConfigurationError String
  | [] => .error .missingArgument
  | first :: _ => .ok first

/-- An unsigned number of at most `bound`. -/
def number (bound : Nat) (error : ConfigurationError) (words : List String) :
    Except ConfigurationError Nat :=
  match word words with
  | .error cause => .error cause
  | .ok first =>
    match Unsigned.parse bound first.toList with
    | .ok value => .ok value
    | .error _ => .error error

/-- `yes` or `no`. -/
def boolean (words : List String) : Except ConfigurationError Bool :=
  match word words with
  | .error cause => .error cause
  | .ok first =>
    if first = "yes" then .ok true
    else if first = "no" then .ok false
    else .error .expectedBoolean

/-- The parts of the first word between commas. -/
def series (words : List String) : Except ConfigurationError (List String) :=
  match word words with
  | .error cause => .error cause
  | .ok first => .ok ((first.toList.splitOn ',').map String.ofList)

/-- A path; a leading `~` is the home directory. -/
def path (home word : String) : String :=
  match word.toList with
  | '~' :: rest => home ++ String.ofList rest
  | _ => word

/-- All words are paths. -/
def paths (home : String) : List String → Except ConfigurationError (List String)
  | [] => .error .missingArgument
  | words => .ok (words.map (path home))

end ConfigurationValue

open ConfigurationValue

/-- What a line with a keyword other than `Host` changes. -/
def Parameters.set (parameters : Parameters) (home keyword : String) (words : List String) :
    Except ConfigurationError Parameters :=
  match keyword.toLower with
  | "hostname" => (word words).map fun v => { parameters with hostName := some v }
  | "user" => (word words).map fun v => { parameters with user := some v }
  | "port" =>
    (number Unsigned.max16 .expectedPort words).map fun v => { parameters with port := some v }
  | "identityfile" =>
    (paths home words).map fun v => { parameters with identityFiles := some v }
  | "compression" => (boolean words).map fun v => { parameters with compression := some v }
  | "tcpkeepalive" => (boolean words).map fun v => { parameters with tcpKeepAlive := some v }
  | "serveraliveinterval" =>
    (number Unsigned.max64 .expectedUnsigned words).map fun v =>
      { parameters with serverAliveInterval := some v }
  | "connecttimeout" =>
    (number Unsigned.max64 .expectedUnsigned words).map fun v =>
      { parameters with connectTimeout := some v }
  | "kexalgorithms" => (series words).map fun v => { parameters with kexAlgorithms := some v }
  | "hostkeyalgorithms" =>
    (series words).map fun v => { parameters with hostKeyAlgorithms := some v }
  | "ciphers" => (series words).map fun v => { parameters with ciphers := some v }
  | "mac" | "macs" => (series words).map fun v => { parameters with macs := some v }
  | "bindaddress" | "bindinterface" | "casignaturealgorithms" | "certificatefile"
  | "ignoreunknown" | "pubkeyacceptedalgorithms" => (word words).map fun _ => parameters
  | "connectionattempts" =>
    (number Unsigned.max64 .expectedUnsigned words).map fun _ => parameters
  | "pubkeyauthentication" => (boolean words).map fun _ => parameters
  | "remoteforward" => (number Unsigned.max16 .expectedPort words).map fun _ => parameters
  | _ => .ok parameters

/-! ## 4. Files -/

namespace HostConfiguration

/-- The block that is being read, and those before it, the last one first. -/
structure Reading where
  done : List HostBlock
  block : HostBlock

/-- What a file begins with: a block for every host. -/
def Reading.start : Reading := ⟨[], ⟨[⟨['*'], false⟩], .empty⟩⟩

/-- Reads the words of a line. -/
def Reading.line (r : Reading) (home : String) : List String → Except ConfigurationError Reading
  | [] => .ok r
  | keyword :: words =>
    if keyword.toLower = "host" then
      match words with
      | [] => .error .missingArgument
      | patterns =>
        .ok ⟨r.block :: r.done, ⟨patterns.map fun w => .ofWord w.toList, .empty⟩⟩
    else
      match r.block.parameters.set home keyword words with
      | .ok parameters => .ok { r with block := { r.block with parameters := parameters } }
      | .error cause => .error cause

/-- Reads lines; those behind a bad one are not looked at. -/
def Reading.lines (r : Reading) (home : String) :
    List (List UInt8) → Except ConfigurationError Reading
  | [] => .ok r
  | line :: rest =>
    match Utf8.decode? line with
    | none => .error .notText
    | some cs =>
      match r.line home (wordsOfLine cs) with
      | .ok next => next.lines home rest
      | .error cause => .error cause

/-- Reads a file; `home` is the home directory. -/
def parse (home : String) (octets : List UInt8) : Except ConfigurationError HostConfiguration :=
  match Reading.start.lines home (octets.splitOn 10) with
  | .ok r => .ok ⟨(r.block :: r.done).reverse⟩
  | .error cause => .error cause

end HostConfiguration

end NetconfClient
