/-
  NetconfClient/Message/RootTag.lean
  ==================================
  **The outermost tag of a message.**

  A message is routed by the name and the attributes of its first start tag.
  Comments, declarations and blanks may stand in front of it; what follows it is
  not looked at.  Names are taken without their namespace prefixes and namespace
  declarations are left out.
-/
import NetconfClient.Fault
import NetconfClient.Markup.Event
import NetconfClient.Text.Dictionary

namespace NetconfClient

open Text Markup

/-- The name and the attributes of the outermost element. -/
structure RootTag where
  name : String
  attributes : Dictionary
  deriving DecidableEq, Repr

namespace RootTag

/-- Adds attributes to those read before; of two with one local name the later stays. -/
def collect : Attributes → Dictionary → Except Fault Dictionary
  | .none, dict => .ok dict
  | .failed e, _ => .error (.markup (MarkupError.attributes e).message)
  | .more attr rest, dict =>
    if declaresNamespace attr.key then collect rest dict
    else
      match unescape attr.value with
      | .ok value =>
        collect rest (dict.insert (String.ofList (localName attr.key)) (String.ofList value))
      | .error e => .error (.markup (MarkupError.entity e).message)

/-- Reads the content of a start tag. -/
def ofContent (content : List Char) : Except Fault RootTag :=
  match collect (attributesOf content) .empty with
  | .ok dict => .ok ⟨String.ofList (localName (tagName content)), dict⟩
  | .error fault => .error fault

/-- The first start tag among the events of a message. -/
def ofEvents : Events → Except Fault RootTag
  | .finished => .error (.malformedMessage "no root element")
  | .failed e => .error (.markup e.message)
  | .event (.opening content) _ | .event (.empty content) _ => ofContent content
  | .event (.text data) rest =>
    if data.all isPrologBlank then ofEvents rest
    else .error (.malformedMessage "text before root element")
  | .event .closing rest | .event .ignored rest => ofEvents rest

/-- The outermost tag of a message. -/
def read (message : String) : Except Fault RootTag :=
  ofEvents (events .kept message.toList)

end RootTag

end NetconfClient
