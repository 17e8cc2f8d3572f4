/-
  NetconfClient/Ssh/Library.lean
  ==============================
  **An ssh library, and the trace of an attempt to use it.**

  What a library answers may depend on everything it was asked before, and it
  may answer the same question differently the next time.  Calls that have to
  succeed are made one after the other up to the first failure (`Library.all`);
  of calls of which one has to succeed, the rejected ones are noted up to the
  first that is accepted (`Library.firstAccepted`).
-/
import NetconfClient.Command.Record
import NetconfClient.Fault
import NetconfClient.Ssh.Call

namespace NetconfClient.Ssh

open Command

/-- A library, by its answers.  What it was asked before is given in its order. -/
structure Library where
  /-- Whether a call succeeds, or the text of its error. -/
  answer : List Call → Call → Except String Unit
  /-- Whether the session counts as logged in. -/
  authenticated : List Call → Bool
  /-- The comments on the keys that an agent holds. -/
  identities : List Call → List String

/-- What has been asked and told so far. -/
structure Trace where
  history : List Call
  log : List Record
  deriving DecidableEq, Repr

namespace Trace

/-- Nothing yet. -/
def empty : Trace := ⟨[], []⟩

/-- One more call. -/
def asked (t : Trace) (call : Call) : Trace := { t with history := t.history ++ [call] }

/-- One more record. -/
def told (t : Trace) (record : Record) : Trace := { t with log := t.log ++ [record] }

/-- The calls that do something: to ask whether the session counts as logged in does nothing. -/
def calls (t : Trace) : List Call := t.history.filter (· ≠ .authenticated)

end Trace

namespace Library

/-- Makes calls up to the first that fails. -/
def all (library : Library) : List Call → Trace → Except Fault Unit × Trace
  | [], t => (.ok (), t)
  | call :: calls, t =>
    match library.answer t.history call with
    | .ok () => library.all calls (t.asked call)
    | .error text => (.error (.ssh text), t.asked call)

/-- Makes calls up to the first that succeeds; `rejection` is the record of a failure. -/
def firstAccepted (library : Library) (rejection : Call → String → Record) :
    List Call → Trace → Trace
  | [], t => t
  | call :: calls, t =>
    match library.answer t.history call with
    | .ok () => t.asked call
    | .error text =>
      library.firstAccepted rejection calls ((t.asked call).told (rejection call text))

/-- Asks whether the session counts as logged in. -/
def isLoggedIn (library : Library) (t : Trace) : Bool × Trace :=
  (library.authenticated t.history, t.asked .authenticated)

end Library

end NetconfClient.Ssh
