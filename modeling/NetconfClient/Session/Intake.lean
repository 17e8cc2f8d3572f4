/-
  NetconfClient/Session/Intake.lean
  =================================
  **The receiving side of a session.**

  Until the first `hello` the exchange of greetings is open.  That message alone
  decides it: if it is a greeting that shares a base version with the own
  capabilities, the session is negotiated and the framing changes right behind
  it where version 1.1 asks for that; if not, nothing more is received.  Later
  greetings are ignored.
-/
import NetconfClient.Capability.Negotiation
import NetconfClient.Framing.Framer
import NetconfClient.Message.Greeting
import NetconfClient.Message.Inbound

namespace NetconfClient.Session

/-- What two peers have agreed on. -/
structure Negotiated where
  greeting : Greeting
  base : BaseVersion
  deriving DecidableEq, Repr

/-- Reads the greeting of the peer and picks the base version. -/
def negotiate (own : CapabilitySet) (message : String) : Except Fault Negotiated :=
  match Greeting.parse message with
  | .error fault => .error fault
  | .ok greeting =>
    match own.negotiate greeting.capabilities with
    | .error fault => .error fault
    | .ok base => .ok ⟨greeting, base⟩

/-- Received octets, and whether the greeting is still to come. -/
structure Intake where
  framer : Framer
  awaiting : Bool
  deriving DecidableEq, Repr

namespace Intake

/-- Nothing received. -/
def start (limit : Nat) : Intake := ⟨.start limit, true⟩

/-- Takes a `hello`: what has been negotiated, if the greeting was still to come. -/
def greet (i : Intake) (own : CapabilitySet) (message : String) :
    Option (Except Fault Negotiated) × Intake :=
  if i.awaiting then
    match negotiate own message with
    | .ok n =>
      (some (.ok n),
        { framer := if n.base = .v1_1 then i.framer.upgrade else i.framer, awaiting := false })
    | .error fault => (some (.error fault), { i with awaiting := false })
  else (none, i)

end Intake

end NetconfClient.Session
