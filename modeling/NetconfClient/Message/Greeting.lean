/-
  NetconfClient/Message/Greeting.lean
  ===================================
  **The greeting of the peer.**

  The events of the message are followed with the path of open elements at hand:
  character data directly inside `hello/capabilities/capability` is a
  capability, inside `hello/session-id` the identifier of the session.  Reading
  stops behind the end of `hello`.  A capability that cannot be read is left out.
-/
import NetconfClient.Capability.Set
import NetconfClient.Markup.Event
import NetconfClient.Text.Unsigned

namespace NetconfClient

open Text Markup

/-- What the peer announced. -/
structure Greeting where
  sessionId : Option Nat
  capabilities : CapabilitySet
  deriving DecidableEq, Repr

namespace Greeting

/-- Why a message is no greeting. -/
inductive Refusal where
  /-- Another element in the place of `hello`. -/
  | otherRoot (name : List Char)
  /-- A root element without content. -/
  | emptyRoot (name : List Char)
  /-- A session identifier that is no number of 64 bits. -/
  | badSessionId (text : List Char) (cause : UnsignedError)
  /-- No element at all. -/
  | nothing
  /-- The message ends inside elements, the innermost first. -/
  | truncated (path : List (List Char))
  /-- No list of capabilities. -/
  | noCapabilities
  /-- Markup that cannot be read. -/
  | unreadable (error : MarkupError)
  deriving DecidableEq, Repr

/-- The wording of each cause. -/
def Refusal.message : Refusal → String
  | otherRoot name => "expected <hello>, got <" ++ String.ofList name ++ ">"
  | emptyRoot name => "expected <hello>, got empty <" ++ String.ofList name ++ "/>"
  | badSessionId text cause =>
    "invalid session-id " ++ Quoted.text text ++ ": " ++ cause.message
  | nothing => "empty greeting"
  | truncated path =>
    "truncated greeting inside <" ++
      String.intercalate "/" (path.reverse.map String.ofList) ++ ">"
  | noCapabilities => "greeting without <capabilities>"
  | unreadable error => error.message

/-- What has been read of a greeting. -/
structure Progress where
  /-- The open elements, the innermost first. -/
  path : List (List Char)
  sessionId : Option Nat
  /-- The texts of the capabilities, the last one first. -/
  texts : List (List Char)
  hasCapabilities : Bool
  deriving DecidableEq, Repr

/-- Nothing read yet. -/
def Progress.start : Progress := ⟨[], none, [], false⟩

/-- Whether the list of capabilities has begun, or begins at an element of that name. -/
def Progress.listsCapabilities (p : Progress) (name : List Char) : Bool :=
  p.hasCapabilities ||
    match p.path with
    | [_] => name == "capabilities".toList
    | _ => false

/-- The path of a capability, the innermost element first. -/
def capabilityPath : List (List Char) :=
  ["capability".toList, "capabilities".toList, "hello".toList]

/-- The path of the session identifier, the innermost element first. -/
def sessionIdPath : List (List Char) := ["session-id".toList, "hello".toList]

/-- Takes character data. -/
def Progress.text (p : Progress) (data : List Char) : Except Refusal Progress :=
  match unescape data with
  | .error e => .error (.unreadable (.entity e))
  | .ok text =>
    if p.path = capabilityPath then .ok { p with texts := text :: p.texts }
    else if p.path = sessionIdPath then
      match Unsigned.parse Unsigned.max64 (trim text) with
      | .ok id => .ok { p with sessionId := some id }
      | .error cause => .error (.badSessionId text cause)
    else .ok p

/-- Takes a start tag. -/
def Progress.opening (p : Progress) (name : List Char) : Except Refusal Progress :=
  if p.path = [] ∧ name ≠ "hello".toList then .error (.otherRoot name)
  else .ok { p with path := name :: p.path, hasCapabilities := p.listsCapabilities name }

/-- Takes an element without content. -/
def Progress.empty (p : Progress) (name : List Char) : Except Refusal Progress :=
  if p.path = [] then .error (.emptyRoot name)
  else .ok { p with hasCapabilities := p.listsCapabilities name }

/-- Takes a construct that is no end tag. -/
def Progress.take (p : Progress) : Event → Except Refusal Progress
  | .opening content => p.opening (localName (tagName content))
  | .empty content => p.empty (localName (tagName content))
  | .text data => p.text data
  | .closing | .ignored => .ok p

/-- Follows the events to the end of the outermost element. -/
def Progress.follow (p : Progress) : Events → Except Refusal Progress
  | .finished => .error (if p.path = [] then .nothing else .truncated p.path)
  | .failed e => .error (.unreadable e)
  | .event .closing rest =>
    if p.path.tail = [] then .ok { p with path := [] }
    else Progress.follow { p with path := p.path.tail } rest
  | .event event rest =>
    match p.take event with
    | .ok q => q.follow rest
    | .error refusal => .error refusal

/-- Adds the capabilities that can be read. -/
def insertReadable (set : CapabilitySet) : List (List Char) → CapabilitySet
  | [] => set
  | text :: rest =>
    match Capability.ofTrimmed (trim text) with
    | .ok c => insertReadable (set.insert c) rest
    | .error _ => insertReadable set rest

/-- The greeting that was read. -/
def ofProgress (p : Progress) : Except Refusal Greeting :=
  if p.hasCapabilities then .ok ⟨p.sessionId, insertReadable .empty p.texts.reverse⟩
  else .error .noCapabilities

/-- The greeting that events make up. -/
def ofEvents (es : Events) : Except Refusal Greeting :=
  match Progress.start.follow es with
  | .ok p => ofProgress p
  | .error refusal => .error refusal

/-- Reads the greeting of the peer. -/
def parse (message : String) : Except Fault Greeting :=
  match ofEvents (events .trimmed message.toList) with
  | .ok greeting => .ok greeting
  | .error refusal => .error (.capabilityExchange refusal.message)

end Greeting

end NetconfClient
