/-
  NetconfClient/Dispatch/Office.lean
  ==================================
  **A registry between its callers and the peer.**

  Callers register requests, wait for them or let go of them at a desk; replies,
  notifications and the end of the session go to the registry behind it.  Every
  act gives an answer, and behind every act the waits that are over are handed
  out.
-/
import NetconfClient.Dispatch.Desk

namespace NetconfClient

open Text

/-- A desk in front of a registry, at some time. -/
structure Office where
  registry : Registry
  desk : Desk
  now : Duration

namespace Office

/-- Nothing has been done yet. -/
def opened : Office := ⟨.empty, .empty, ⟨0⟩⟩

/-- What can be done. -/
inductive Act where
  /-- Registers a request and holds it under a label. -/
  | register (label id : String)
  | cancel (id : String)
  | reply (id : Option String) (raw : String)
  /-- The session ends. -/
  | fail (fault : Fault)
  | subscribe
  | unsubscribe
  | notify (raw : String)
  /-- Takes the notifications that have come. -/
  | collect
  | poll (label : String)
  /-- Waits in the background, for ever or up to a limit. -/
  | wait (label : String) (limit : Option Duration)
  | forget (label : String)
  /-- Time passes. -/
  | elapse (span : Duration)
  deriving DecidableEq, Repr

/-- What an act comes back with. -/
inductive Answer where
  | registered (t : Ticket)
  /-- The reply or the subscription was accepted. -/
  | accepted
  | refused (fault : Fault)
  /-- Whether there was something to act on. -/
  | told (was : Bool)
  /-- The number of requests that were failed. -/
  | failed (count : Nat)
  | seen (look : Desk.Look)
  | handed (notifications : Option (List String × Bool))
  | done

/-- An act, without the waits that are over behind it. -/
def perform (o : Office) : Act → Answer × Office
  | .register label id =>
    match o.registry.register id with
    | .ok (t, registry) => (.registered t, { o with registry := registry, desk := o.desk.hold label t })
    | .error fault => (.refused fault, o)
  | .cancel id =>
    match o.registry.cancel id with
    | (was, registry) => (.told was, { o with registry := registry })
  | .reply id raw =>
    match o.registry.deliverReply id raw with
    | .ok registry => (.accepted, { o with registry := registry })
    | .error fault => (.refused fault, o)
  | .fail fault =>
    match o.registry.deliverError fault with
    | (count, registry) => (.failed count, { o with registry := registry })
  | .subscribe =>
    match o.desk.subscribe o.registry with
    | .ok (desk, registry) => (.accepted, { o with registry := registry, desk := desk })
    | .error fault => (.refused fault, o)
  | .unsubscribe =>
    match o.desk.unsubscribe o.registry with
    | (was, desk, registry) => (.told was, { o with registry := registry, desk := desk })
  | .notify raw =>
    match o.registry.deliverNotification raw with
    | (was, registry) => (.told was, { o with registry := registry })
  | .collect =>
    match o.desk.notifications o.registry with
    | (notifications, desk) => (.handed notifications, { o with desk := desk })
  | .poll label =>
    match o.desk.poll o.registry label with
    | (look, desk) => (.seen look, { o with desk := desk })
  | .wait label limit =>
    match o.desk.wait o.now label limit with
    | (was, desk) => (.told was, { o with desk := desk })
  | .forget label =>
    match o.desk.forget label with
    | (was, desk) => (.told was, { o with desk := desk })
  | .elapse span => (.done, { o with now := ⟨o.now.nanos + span.nanos⟩ })

/-- Hands out the waits that are over. -/
def settleWaits (o : Office) : List (String × Outcome) × Office :=
  match o.desk.finish o.registry o.now with
  | (ended, desk) => (ended, { o with desk := desk })

/-- An act: its answer, the waits that are over behind it, and what follows. -/
def act (o : Office) (a : Act) : Answer × List (String × Outcome) × Office :=
  match o.perform a with
  | (answer, p) => (answer, p.settleWaits)

/-- The office behind acts, one after the other. -/
def after (o : Office) (acts : List Act) : Office := acts.foldl (fun p a => (p.act a).2.2) o

end Office

end NetconfClient
