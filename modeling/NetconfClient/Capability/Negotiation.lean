/-
  NetconfClient/Capability/Negotiation.lean
  =========================================
  **The base version that two peers share.**

  Both have to announce it by its URI; version 1.1 is preferred, and brings the
  chunked framing with it.
-/
import NetconfClient.Capability.Set
import NetconfClient.Framing.Basic

namespace NetconfClient

open Text

/-- A version of the base protocol. -/
inductive BaseVersion where
  | v1_0
  | v1_1
  deriving DecidableEq, Repr

namespace BaseVersion

/-- The URI that announces a base version. -/
def uri : BaseVersion → String
  | v1_0 => "urn:ietf:params:netconf:base:1.0"
  | v1_1 => "urn:ietf:params:netconf:base:1.1"

/-- The framing behind the greetings. -/
def framing : BaseVersion → Framing
  | v1_0 => .endOfMessage
  | v1_1 => .chunked

/-- The version number. -/
def render : BaseVersion → String
  | v1_0 => "1.0"
  | v1_1 => "1.1"

end BaseVersion

namespace CapabilitySet

/-- The base protocol URIs of a set. -/
def baseUris (set : CapabilitySet) : List String :=
  set.uris.filter fun uri => Capability.baseUrn.toList.isPrefixOf uri.toList

/-- The preferred base version that both sets announce. -/
def negotiate (own peer : CapabilitySet) : Except Fault BaseVersion :=
  match [BaseVersion.v1_1, .v1_0].find? (fun v => own.contains v.uri && peer.contains v.uri) with
  | some version => .ok version
  | none =>
    .error (.capabilityExchange
      ("no common base protocol version (local: " ++ Quoted.list own.baseUris ++ ", peer: " ++
        Quoted.list peer.baseUris ++ ")"))

end CapabilitySet

end NetconfClient
