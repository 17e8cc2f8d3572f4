/-
  NetconfClient/Message/Hello.lean
  ================================
  **The greeting that a peer sends.**

  It announces capabilities; a server adds the identifier of the session.
-/
import NetconfClient.Capability.Set
import NetconfClient.Markup.Entity

namespace NetconfClient

open Markup

/-- The namespace of the protocol's messages. -/
def baseNamespace : String := "urn:ietf:params:xml:ns:netconf:base:1.0"

/-- What a greeting announces. -/
structure Hello where
  capabilities : List String
  sessionId : Option Nat
  deriving DecidableEq, Repr

namespace Hello

/-- The greeting of a client that holds those capabilities. -/
def ofCapabilities (set : CapabilitySet) : Hello := ⟨set.announcements, none⟩

/-- The greeting of a server. -/
def withSessionId (hello : Hello) (id : Nat) : Hello := { hello with sessionId := some id }

/-- The element of one capability; without a text it is an empty element. -/
def renderCapability (text : String) : String :=
  if text = "" then "<capability/>" else "<capability>" ++ escapeString text ++ "</capability>"

/-- The elements of capabilities, one behind the other. -/
def renderAll : List String → String
  | [] => ""
  | text :: rest => renderCapability text ++ renderAll rest

/-- The element that lists the capabilities. -/
def renderCapabilities (texts : List String) : String :=
  if texts = [] then "<capabilities/>"
  else "<capabilities>" ++ renderAll texts ++ "</capabilities>"

/-- The element of the session identifier, if there is one. -/
def renderSessionId : Option Nat → String
  | none => ""
  | some id => "<session-id>" ++ toString id ++ "</session-id>"

/-- The greeting as a message. -/
def render (hello : Hello) : String :=
  "<hello xmlns=\"" ++ baseNamespace ++ "\">" ++ renderCapabilities hello.capabilities ++
    renderSessionId hello.sessionId ++ "</hello>"

end Hello

end NetconfClient
