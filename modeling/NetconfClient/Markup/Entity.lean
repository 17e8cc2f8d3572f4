/-
  NetconfClient/Markup/Entity.lean
  ================================
  **Entities in character data.**

  `escape` writes the five characters that markup reserves as entities.
  `unescape` reads those five and numeric references; it works from the left and
  stops at the first reference that it cannot read.  Positions in its errors
  count octets.
-/
import NetconfClient.Text.Quoted
import NetconfClient.Text.Utf8

namespace NetconfClient.Markup

open Text

/-! ## 1. Writing -/

/-- The form of a character in character data and attribute values. -/
def escapeChar (c : Char) : List Char :=
  if c = '&' then "&amp;".toList
  else if c = '<' then "&lt;".toList
  else if c = '>' then "&gt;".toList
  else if c = '\'' then "&apos;".toList
  else if c = '"' then "&quot;".toList
  else [c]

/-- Text as character data. -/
def escape (cs : List Char) : List Char := cs.flatMap escapeChar

/-- A string as character data. -/
def escapeString (s : String) : String := String.ofList (escape s.toList)

/-! ## 2. Reading -/

/-- Why character data cannot be read. -/
inductive EntityError where
  /-- No `;` follows the `&` at `start` before the next `&`; the text ends at `stop`. -/
  | unterminated (start stop : Nat)
  /-- An entity of that name is not known. -/
  | unknown (start stop : Nat) (name : List Char)
  /-- A reference to the character 0. -/
  | null (start stop : Nat)
  | longHexadecimal
  | longDecimal
  | badHexadecimal (c : Char)
  | badDecimal (c : Char)
  /-- A number that belongs to no character. -/
  | noCharacter (code : Nat)
  deriving DecidableEq, Repr

namespace EntityError

/-- A range of octets at which character data cannot be read. -/
def atRange (start stop : Nat) : String :=
  "Error while escaping character at range " ++ toString start ++ ".." ++ toString stop ++ ": "

/-- The wording of each cause. -/
def message : EntityError → String
  | unterminated start stop => atRange start stop ++ "Cannot find ';' after '&'"
  | unknown start stop name =>
    atRange start stop ++ "Unrecognized escape symbol: " ++ Quoted.text name
  | null start stop => atRange start stop ++ "Null character entity not allowed"
  | longHexadecimal => "Cannot convert hexadecimal to utf8"
  | longDecimal => "Cannot convert decimal to utf8"
  | badHexadecimal c => "'" ++ c.toString ++ "' is not a valid hexadecimal character"
  | badDecimal c => "'" ++ c.toString ++ "' is not a valid decimal character"
  | noCharacter code => "'" ++ toString code ++ "' is not a valid codepoint"

end EntityError

/-- The value of a hexadecimal digit. -/
def hexDigit? (c : Char) : Option Nat :=
  if '0' ≤ c ∧ c ≤ '9' then some (c.toNat - '0'.toNat)
  else if 'a' ≤ c ∧ c ≤ 'f' then some (c.toNat - 'a'.toNat + 10)
  else if 'A' ≤ c ∧ c ≤ 'F' then some (c.toNat - 'A'.toNat + 10)
  else none

/-- Reads hexadecimal digits behind the value read so far. -/
def readHexadecimal : Nat → List Char → Except EntityError Nat
  | code, [] => .ok code
  | code, c :: cs =>
    match hexDigit? c with
    | some d => readHexadecimal (code * 16 + d) cs
    | none => .error (.badHexadecimal (Utf8.firstOctet c))

/-- Reads decimal digits behind the value read so far. -/
def readDecimal : Nat → List Char → Except EntityError Nat
  | code, [] => .ok code
  | code, c :: cs =>
    if c.isDigit then readDecimal (code * 10 + (c.toNat - '0'.toNat)) cs
    else .error (.badDecimal (Utf8.firstOctet c))

/-- The code point that a numeric reference names, without its `#`. -/
def readCode (digits : List Char) : Except EntityError Nat :=
  match digits with
  | 'x' :: hex =>
    if Utf8.size hex > 6 then .error .longHexadecimal else readHexadecimal 0 hex
  | decimal =>
    if Utf8.size decimal > 7 then .error .longDecimal else readDecimal 0 decimal

/-- The character that a numeric reference between `start` and `stop` names. -/
def readReference (start stop : Nat) (digits : List Char) : Except EntityError Char :=
  match readCode digits with
  | .error e => .error e
  | .ok code =>
    if code = 0 then .error (.null start stop)
    else if h : code.isValidChar then .ok (Char.ofNatAux code h)
    else .error (.noCharacter code)

/-- The characters with a name. -/
def named : List (List Char × Char) :=
  [("lt".toList, '<'), ("gt".toList, '>'), ("amp".toList, '&'), ("apos".toList, '\''),
    ("quot".toList, '"')]

/-- The character that an entity names; its `&` is at `start` and its `;` at `stop`. -/
def resolve (start stop : Nat) (name : List Char) : Except EntityError Char :=
  match name with
  | '#' :: digits => readReference start stop digits
  | _ =>
    match named.lookup name with
    | some c => .ok c
    | none => .error (.unknown (start + 1) stop name)

/-- Where a reader of character data stands. -/
inductive Within where
  /-- Outside entities. -/
  | text
  /-- Behind the `&` at `start`, with the characters since then, the last one first. -/
  | entity (start : Nat) (reversed : List Char)
  deriving DecidableEq, Repr

/-- Reads character data of `total` octets from octet `pos` on. -/
def unescapeFrom (total : Nat) : Within → Nat → List Char → Except EntityError (List Char)
  | .text, _, [] => .ok []
  | .entity start _, _, [] => .error (.unterminated start total)
  | .text, pos, c :: cs =>
    if c = '&' then unescapeFrom total (.entity pos []) (pos + 1) cs
    else (unescapeFrom total .text (pos + Utf8.charSize c) cs).map (c :: ·)
  | .entity start name, pos, c :: cs =>
    if c = ';' then
      match resolve start pos name.reverse with
      | .ok d => (unescapeFrom total .text (pos + 1) cs).map (d :: ·)
      | .error e => .error e
    else if c = '&' then .error (.unterminated start total)
    else unescapeFrom total (.entity start (c :: name)) (pos + Utf8.charSize c) cs

/-- The text that character data stands for. -/
def unescape (cs : List Char) : Except EntityError (List Char) :=
  unescapeFrom (Utf8.size cs) .text 0 cs

end NetconfClient.Markup
