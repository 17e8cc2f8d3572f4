/-
  NetconfClient/Message/Inbound.lean
  ==================================
  **What a received message is, by its root tag alone.**
-/
import NetconfClient.Message.RootTag

namespace NetconfClient

/-- The kind of a received message. -/
inductive Inbound where
  | hello
  /-- A reply, with the identifier of the request that it answers. -/
  | reply (id : Option String)
  | notification
  /-- Anything else, by the name of its root. -/
  | unexpected (name : String)
  deriving DecidableEq, Repr

namespace Inbound

/-- The kind of message that a root tag announces. -/
def ofRootTag (root : RootTag) : Inbound :=
  if root.name = "hello" then .hello
  else if root.name = "rpc-reply" then .reply (root.attributes.get? "message-id")
  else if root.name = "notification" then .notification
  else .unexpected root.name

/-- The kind of a message. -/
def classify (message : String) : Except Fault Inbound :=
  match RootTag.read message with
  | .ok root => .ok (ofRootTag root)
  | .error fault => .error fault

end Inbound

end NetconfClient
