/-
  NetconfClient/Fault.lean
  ========================
  **Everything that can go wrong, as causes.**

  A `Fault` says what happened; `Fault.message` is the only place where it is
  put into words, and `Fault.isFatal` says whether the session can carry further
  messages after it.
-/
import NetconfClient.Text.Duration
import NetconfClient.Text.Quoted

namespace NetconfClient

open Text

/-- A cause of failure. -/
inductive Fault where
  /-- The byte transport failed. -/
  | io (text : String)
  /-- The secure shell failed. -/
  | ssh (text : String)
  /-- A start tag cannot be read. -/
  | markup (text : String)
  /-- A chunk delimiter is not where it has to be. -/
  | malformedChunk (expected actual : Char)
  /-- The byte stream is out of step for another reason. -/
  | framing (text : String)
  /-- A message has no readable root. -/
  | malformedMessage (text : String)
  /-- The greetings do not lead to a session. -/
  | capabilityExchange (text : String)
  /-- A reply that nobody waits for. -/
  | unknownMessageId (id : String)
  /-- An element that has to carry a message identifier carries none. -/
  | missingMessageId (element : String)
  /-- A second request under an identifier that is still in use. -/
  | duplicateMessageId (id : String)
  /-- The peer ended the stream of an open session. -/
  | unexpectedEnd
  /-- The session ended while a request was outstanding. -/
  | transportClosed (reason : String)
  /-- The session is not open. -/
  | notConnected
  /-- No reply came in time. -/
  | timeout (limit : Duration)
  /-- Any other failure, in words. -/
  | other (text : String)
  deriving DecidableEq, Repr

namespace Fault

/-- The wording of a fault. -/
def message : Fault → String
  | io text => text
  | ssh text => text
  | markup text => text
  | malformedChunk expected actual =>
    "malformed message chunk (expected " ++ Quoted.char expected ++ ", actual " ++
      Quoted.char actual ++ ")"
  | framing text => "framing error: " ++ text
  | malformedMessage text => "malformed message: " ++ text
  | capabilityExchange text => "capability exchange failed: " ++ text
  | unknownMessageId id => "reply for unknown message-id " ++ id
  | missingMessageId element => "<" ++ element ++ "> without message-id attribute"
  | duplicateMessageId id => "message-id " ++ id ++ " is already awaiting a reply"
  | unexpectedEnd => "transport closed unexpectedly"
  | transportClosed reason => "transport closed: " ++ reason
  | notConnected => "session is not connected"
  | timeout limit => "no reply within " ++ limit.render
  | other text => text

/-- Whether the session cannot carry any message after the fault. -/
def isFatal : Fault → Bool
  | io _ | ssh _ | malformedChunk _ _ | framing _ | unexpectedEnd | transportClosed _ => true
  | _ => false

/-- Why the outstanding requests fail when the fault ends a session: the reason
    of an earlier closing is passed on as it is. -/
def closingReason : Fault → String
  | transportClosed reason => reason
  | fault => fault.message

end Fault

end NetconfClient
