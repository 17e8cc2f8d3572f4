/-
  NetconfClient/Dispatch/Desk.lean
  ================================
  **The side of the callers.**

  A desk holds requests under labels, waits for some of them in the background,
  and has at most one subscription.  Time is given to it from outside.  What
  finishes in the background is noted with its label.
-/
import NetconfClient.Dispatch.Registry

namespace NetconfClient

open Text

/-- A request in hand. -/
structure Held where
  ticket : Ticket
  /-- Whether it has been looked at while it was still open. -/
  polled : Bool
  deriving DecidableEq, Repr

/-- A request that is waited for in the background. -/
structure Wait where
  label : String
  ticket : Ticket
  /-- The longest wait, and the time at which it is over. -/
  limit : Option (Duration × Duration)
  deriving DecidableEq, Repr

/-- What a desk has at hand. -/
structure Desk where
  held : List (String × Held)
  waits : List Wait
  /-- The number of the stream, and how many of its notifications have been taken. -/
  stream : Option (Nat × Nat)
  deriving DecidableEq, Repr

namespace Desk

/-- Nothing at hand. -/
def empty : Desk := ⟨[], [], none⟩

/-- Whatever is held under a label is let go of. -/
def release (d : Desk) (label : String) : Desk :=
  { d with held := d.held.filter (·.1 != label) }

/-- Holds a request under a label, in place of an earlier one. -/
def hold (d : Desk) (label : String) (t : Ticket) : Desk :=
  { d with held := (label, ⟨t, false⟩) :: (d.release label).held }

/-- What a look at a request shows. -/
inductive Look where
  | noSuchRequest
  | pending
  | settled (outcome : Outcome)

/-- Looks at a request without waiting.  A settled one is handed over. -/
def poll (d : Desk) (r : Registry) (label : String) : Look × Desk :=
  match d.held.lookup label with
  | none => (.noSuchRequest, d)
  | some h =>
    match r.outcome? h.ticket with
    | some outcome => (.settled outcome, d.release label)
    | none =>
      (.pending, { d with held := (label, ⟨h.ticket, true⟩) :: (d.release label).held })

/-- Waits for a request in the background; tells whether there is one that can be
    waited for.  The label is free at once. -/
def wait (d : Desk) (now : Duration) (label : String) (limit : Option Duration) : Bool × Desk :=
  match d.held.lookup label with
  | none => (false, d)
  | some h =>
    if h.polled then (false, d.release label)
    else
      let deadline := limit.map fun l => (l, (⟨now.nanos + l.nanos⟩ : Duration))
      (true, { d.release label with waits := d.waits ++ [⟨label, h.ticket, deadline⟩] })

/-- Lets go of a request; tells whether there was one.  It stays registered. -/
def forget (d : Desk) (label : String) : Bool × Desk :=
  ((d.held.lookup label).isSome, d.release label)

/-- What a wait has come to by a given time. -/
def Wait.result? (w : Wait) (r : Registry) (now : Duration) : Option Outcome :=
  match r.outcome? w.ticket with
  | some outcome => some outcome
  | none =>
    match w.limit with
    | some (limit, deadline) =>
      if deadline.nanos ≤ now.nanos then some (.error (.timeout limit)) else none
    | none => none

/-- The waits that are over, and the desk without them. -/
def finish (d : Desk) (r : Registry) (now : Duration) : List (String × Outcome) × Desk :=
  (d.waits.filterMap fun w => (Wait.result? w r now).map fun o => (w.label, o),
    { d with waits := d.waits.filter fun w => (Wait.result? w r now).isNone })

/-- Subscribes, in place of an earlier subscription. -/
def subscribe (d : Desk) (r : Registry) : Except Fault (Desk × Registry) :=
  match r.subscribe with
  | .error fault => .error fault
  | .ok (n, next) =>
    .ok ({ d with stream := some (n, 0) },
      match d.stream with
      | some (old, _) => next.unsubscribe old
      | none => next)

/-- Ends the subscription; tells whether there was one. -/
def unsubscribe (d : Desk) (r : Registry) : Bool × Desk × Registry :=
  match d.stream with
  | some (n, _) => (true, { d with stream := none }, r.unsubscribe n)
  | none => (false, d, r)

/-- Takes the notifications that have come since the last time, and whether no more can
    come. -/
def notifications (d : Desk) (r : Registry) : Option (List String × Bool) × Desk :=
  match d.stream with
  | none => (none, d)
  | some (n, taken) =>
    let delivered := match r.streams[n]? with
      | some s => s.delivered
      | none => []
    (some (delivered.drop taken, !r.isLive n), { d with stream := some (n, delivered.length) })

end Desk

end NetconfClient
