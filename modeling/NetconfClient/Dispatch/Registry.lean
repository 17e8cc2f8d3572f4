/-
  NetconfClient/Dispatch/Registry.lean
  ====================================
  **Which reply belongs to which request.**

  Every request is registered under its message identifier before it is sent and
  gets a ticket, the number of its registration.  A reply resolves the request
  that is registered under its identifier and removes the entry; the end of the
  session resolves all of them.  Notifications go to the current subscriber, on
  a path of their own.

  The registry keeps the outcome of every ticket and the whole stream of every
  subscriber, so that it can be asked later who got what.
-/
import NetconfClient.Fault

namespace NetconfClient

/-- The number of a registration, counted from the first. -/
abbrev Ticket := Nat

/-- What a request came to: the reply as it was received, or why there is none. -/
abbrev Outcome := Except Fault String

/-- The notifications handed to one subscriber. -/
structure Stream where
  delivered : List String
  /-- Whether the subscriber still listens. -/
  listening : Bool
  deriving DecidableEq, Repr

/-- The requests and the subscribers of one session. -/
structure Registry where
  /-- The identifiers in use and their tickets, the oldest first. -/
  pending : List (String × Ticket)
  /-- What each ticket came to, if it is settled. -/
  outcomes : List (Option Outcome)
  /-- The number of the stream that notifications go to. -/
  subscriber : Option Nat
  /-- The streams, in the order of their subscriptions. -/
  streams : List Stream
  /-- Whether the session has ended. -/
  closed : Bool
  deriving Repr

namespace Registry

/-- No request and no subscriber yet. -/
def empty : Registry := ⟨[], [], none, [], false⟩

/-! ## 1. Requests -/

/-- The number of requests that wait for a reply. -/
def size (r : Registry) : Nat := r.pending.length

/-- The ticket registered under an identifier. -/
def ticket? (r : Registry) (id : String) : Option Ticket := r.pending.lookup id

/-- What a ticket came to. -/
def outcome? (r : Registry) (t : Ticket) : Option Outcome := (r.outcomes[t]?).join

/-- Registers a request. -/
def register (r : Registry) (id : String) : Except Fault (Ticket × Registry) :=
  if r.closed then .error .notConnected
  else
    match r.ticket? id with
    | some _ => .error (.duplicateMessageId id)
    | none =>
      .ok (r.outcomes.length,
        { r with
          pending := r.pending ++ [(id, r.outcomes.length)]
          outcomes := r.outcomes ++ [none] })

/-- Settles a ticket. -/
def settle (r : Registry) (t : Ticket) (outcome : Outcome) : Registry :=
  { r with outcomes := r.outcomes.set t (some outcome) }

/-- Frees an identifier. -/
def release (r : Registry) (id : String) : Registry :=
  { r with pending := r.pending.filter (·.1 != id) }

/-- What becomes of a request that the registry lets go of. -/
def abandoned : Outcome := .error (.transportClosed "dispatch registry dropped")

/-- Takes a request back; tells whether there was one. -/
def cancel (r : Registry) (id : String) : Bool × Registry :=
  match r.ticket? id with
  | some t => (true, (r.settle t abandoned).release id)
  | none => (false, r)

/-- Hands a reply to the request with that identifier. -/
def deliverReply (r : Registry) (id : Option String) (raw : String) : Except Fault Registry :=
  match id with
  | none => .error (.missingMessageId "rpc-reply")
  | some id =>
    match r.ticket? id with
    | some t => .ok ((r.settle t (.ok raw)).release id)
    | none => .error (.unknownMessageId id)

/-- Settles tickets in the same way. -/
def settleAll (r : Registry) (outcome : Outcome) : List Ticket → Registry
  | [] => r
  | t :: rest => (r.settle t outcome).settleAll outcome rest

/-- Fails every request and refuses new ones; tells how many there were. -/
def deliverError (r : Registry) (fault : Fault) : Nat × Registry :=
  (r.size,
    { r.settleAll (.error (.transportClosed fault.closingReason)) (r.pending.map (·.2)) with
      pending := []
      subscriber := none
      closed := true })

/-! ## 2. Notifications -/

/-- Subscribes in the place of an earlier subscriber; tells the number of the stream. -/
def subscribe (r : Registry) : Except Fault (Nat × Registry) :=
  if r.closed then .error .notConnected
  else
    .ok (r.streams.length,
      { r with
        subscriber := some r.streams.length
        streams := r.streams ++ [⟨[], true⟩] })

/-- Whether notifications go to a stream. -/
def isLive (r : Registry) (stream : Nat) : Bool := r.subscriber == some stream

/-- The subscriber of a stream stops listening. -/
def unsubscribe (r : Registry) (stream : Nat) : Registry :=
  { r with streams := r.streams.modify stream fun s => { s with listening := false } }

/-- Hands a notification to the subscriber; tells whether there was one.  A subscriber
    that has stopped listening is forgotten. -/
def deliverNotification (r : Registry) (raw : String) : Bool × Registry :=
  match r.subscriber with
  | none => (false, r)
  | some n =>
    match r.streams[n]? with
    | some ⟨_, true⟩ =>
      (true,
        { r with streams := r.streams.modify n fun s => { s with delivered := s.delivered ++ [raw] } })
    | _ => (false, { r with subscriber := none })

/-- The registry goes away: what is still open is let go of. -/
def dissolve (r : Registry) : Registry :=
  { r.settleAll abandoned (r.pending.map (·.2)) with pending := [], subscriber := none }

end Registry

end NetconfClient
