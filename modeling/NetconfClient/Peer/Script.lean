/-
  NetconfClient/Peer/Script.lean
  ==============================
  **A peer that answers as a script says.**

  It answers the greeting of the client with its own, and the n-th request with
  the n-th list of remarks.  Messages come in the framing that the two greetings
  agree on.
-/
import NetconfClient.Message.RootTag
import NetconfClient.Session.Intake
import NetconfClient.Session.Link

namespace NetconfClient.Peer

open Session Text

/-- Something that a peer does when it gets a request. -/
inductive Remark where
  /-- Sends a message; it may depend on the identifier of the request. -/
  | message (text : String → String)
  /-- Ends its side of the stream. -/
  | hangUp
  /-- The user interrupts once everything else has been handled. -/
  | interrupt

/-- What a peer is going to say. -/
structure Script where
  hello : String
  replies : List (List Remark)

/-- A peer with everything that it has received. -/
structure Scripted where
  script : Script
  framer : Framer
  framing : Framing
  /-- The messages received, in their order. -/
  received : List String
  /-- Whether the user is going to interrupt. -/
  interrupting : Bool

namespace Scripted

/-- A peer that has not heard anything. -/
def start (script : Script) : Scripted :=
  ⟨script, .start Framer.defaultLimit, .endOfMessage, [], false⟩

/-- The framing that two greetings agree on. -/
def agreed (client peer : String) : Framing :=
  match Greeting.parse client with
  | .error _ => .endOfMessage
  | .ok greeting =>
    match negotiate greeting.capabilities peer with
    | .ok n => n.base.framing
    | .error _ => .endOfMessage

/-- Answers the greeting of the client. -/
def greet (p : Scripted) (client : String) (l : Link) : Scripted × Link :=
  ({ p with
      framing := agreed client p.script.hello
      framer := if agreed client p.script.hello = .chunked then p.framer.upgrade else p.framer },
    l.arrive (Framing.endOfMessage.encode p.script.hello))

/-- The identifier of a request. -/
def idOf (request : String) : String :=
  match RootTag.read request with
  | .ok tag => (tag.attributes.get? "message-id").getD ""
  | .error _ => ""

/-- Makes remarks; behind the end of the stream nothing arrives any more. -/
def remark (id : String) : List Remark → Scripted × Link → Scripted × Link
  | [], state => state
  | .message text :: rest, (p, l) =>
    remark id rest (p, if l.ended then l else l.arrive (p.framing.encode (text id)))
  | .hangUp :: rest, (p, l) => remark id rest (p, { l with ended := true })
  | .interrupt :: rest, (p, l) => remark id rest ({ p with interrupting := true }, l)

/-- Takes a message: the first one is the greeting, the others are requests. -/
def take (message : String) (state : Scripted × Link) : Scripted × Link :=
  match state with
  | (p, l) =>
    match p.received.length with
    | 0 => { p with received := [message] }.greet message l
    | n + 1 =>
      remark (idOf message) (p.script.replies[n]?.getD [])
        ({ p with received := p.received ++ [message] }, l)

/-- Reacts to what the client has written. -/
def react (p : Scripted) (l : Link) : Scripted × Link :=
  match l.takeWritten with
  | (octets, l) =>
    match p.framer.feed octets with
    | (.ok messages, framer) =>
      messages.foldl (fun state message => take message state) ({ p with framer := framer }, l)
    | (.error _, framer) => ({ p with framer := framer }, l)

/-- Ends its side once the client has ended its own. -/
def part (l : Link) : Link := if l.shutDown then { l with ended := true } else l

end Scripted

end NetconfClient.Peer
