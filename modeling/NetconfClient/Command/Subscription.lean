/-
  NetconfClient/Command/Subscription.lean
  =======================================
  **The request for notifications.**

  The name of the stream and the filter stand in the request as they are given;
  only the blanks around the filter are cut off.
-/
import NetconfClient.Text.Blank

namespace NetconfClient.Command

open Text

/-- The namespace of the request. -/
def notificationNamespace : String := "urn:ietf:params:xml:ns:netconf:notification:1.0"

/-- The filter of a request. -/
def renderFilter : Option String → String
  | none => ""
  | some filter => "<filter type=\"subtree\">" ++ trimString filter ++ "</filter>"

/-- The operation that asks for the notifications of a stream. -/
def createSubscription (stream : String) (filter : Option String) : String :=
  "<create-subscription xmlns=\"" ++ notificationNamespace ++ "\"><stream>" ++ stream ++
    "</stream>" ++ renderFilter filter ++ "</create-subscription>"

end NetconfClient.Command
