/-
  NetconfClient/Proofs/Dispatch/Delivery.lean
  ===========================================
  **Replies and notifications, in any order.**

  What arrives from the peer registers nothing and takes nothing back.  So once
  every pending identifier has been answered nobody waits any more
  (`pending_replay_eq_nil`), and the streams have grown by the notifications and
  by nothing else (`streams_replay`).
-/
import NetconfClient.Proofs.Dispatch.Trace

namespace NetconfClient.Registry

variable {r : Registry} {op : Op} {ops : List Op} {id : String} {t : Ticket} {o : Outcome}

/-- A reply completes the request that is registered under its identifier, and frees it. -/
theorem exists_deliverReply (h : r.WellFormed) (ht : r.ticket? id = some t) (raw : String) :
    ∃ next, r.deliverReply (some id) raw = .ok next ∧ next.outcome? t = some (.ok raw) ∧
      next.ticket? id = none := by
  refine ⟨(r.settle t (.ok raw)).release id, ?_, ?_, Association.lookup_filter_self⟩
  · rw [deliverReply, ht]
  · rw [outcome?, release, settle, List.getElem?_set_self (h.lt_length ht)]
    rfl

/-- Whether an operation hands on what the peer has sent. -/
def Op.Delivers : Op → Prop
  | .reply _ _ | .notify _ => True
  | _ => False

/-- The notification that an operation hands on. -/
def Op.notification? : Op → Option String
  | .notify raw => some raw
  | _ => none

theorem length_outcomes_apply (h : op.Delivers) :
    (r.apply op).outcomes.length = r.outcomes.length := by
  cases op with
  | reply id raw =>
    cases id with
    | none => rfl
    | some id =>
      simp only [apply, deliverReply]
      cases r.ticket? id with
      | none => rfl
      | some t =>
        change (r.settle t (.ok raw)).outcomes.length = r.outcomes.length
        rw [settle, List.length_set]
  | notify raw =>
    simp only [apply, deliverNotification]
    split
    · rfl
    · split <;> rfl
  | register | cancel | fail | subscribe | unsubscribe => cases h

theorem length_outcomes_replay (h : ∀ op ∈ ops, op.Delivers) :
    (r.replay ops).outcomes.length = r.outcomes.length := by
  induction ops generalizing r with
  | nil => rfl
  | cons op ops ih =>
    have hrest := ih (r := r.apply op) fun x hx => h x (List.mem_cons_of_mem op hx)
    exact hrest.trans (length_outcomes_apply (h op List.mem_cons_self))

/-- **Nobody waits once every pending identifier has been settled.** -/
theorem pending_replay_eq_nil (hr : r.WellFormed) (h : ∀ op ∈ ops, op.Delivers)
    (hall : ∀ id t, r.ticket? id = some t → ∃ o, ops.findSome? (settlement id) = some o) :
    (r.replay ops).pending = [] := by
  have hlater := hr.replay ops
  rw [List.eq_nil_iff_forall_not_mem]
  rintro ⟨id, t⟩ hmem
  have hopen : (r.replay ops).outcomes[t]? = some none :=
    (hlater.unsettled_iff t).mpr (List.mem_map_of_mem hmem)
  have hlt : t < r.outcomes.length := by
    rw [← length_outcomes_replay h]
    exact (List.getElem?_eq_some_iff.mp hopen).1
  cases hbefore : r.outcomes[t] with
  | some o =>
    have hsettled : r.outcomes[t]? = some (some o) := by
      rw [List.getElem?_eq_getElem hlt, hbefore]
    rw [outcomes_replay_of_settled hr hsettled] at hopen
    cases hopen
  | none =>
    have hunsettled : r.outcomes[t]? = some none := by
      rw [List.getElem?_eq_getElem hlt, hbefore]
    obtain ⟨⟨x, u⟩, hentry, hu⟩ := List.mem_map.mp ((hr.unsettled_iff t).mp hunsettled)
    obtain rfl : u = t := hu
    have hticket : r.ticket? x = some u := hr.ticket?_iff.mpr hentry
    obtain ⟨o, ho⟩ := hall x u hticket
    have houtcome := outcome?_replay hr hticket ops
    rw [ho, outcome?, hopen] at houtcome
    cases houtcome

/-! ## Notifications -/

/-- The streams once notifications have been handed to the subscriber. -/
def broadcast (r : Registry) (raws : List String) : List Stream :=
  match r.subscriber with
  | none => r.streams
  | some n =>
    r.streams.modify n fun s => if s.listening then { s with delivered := s.delivered ++ raws } else s

theorem broadcast_nil (r : Registry) : r.broadcast [] = r.streams := by
  unfold broadcast
  split
  · rfl
  · next n _ =>
    refine List.ext_getElem? fun i => ?_
    rw [List.getElem?_modify]
    cases r.streams[i]? <;> simp

theorem broadcast_reply (r : Registry) (id : Option String) (raw : String) (raws : List String) :
    (r.apply (.reply id raw)).broadcast raws = r.broadcast raws := by
  cases id with
  | none => rfl
  | some id =>
    simp only [apply, deliverReply]
    cases r.ticket? id <;> rfl

/-- A subscriber that has stopped listening gets nothing. -/
theorem modify_of_deaf {streams : List Stream} {n : Nat} (raws : List String)
    (h : ∀ s, streams[n]? = some s → s.listening = false) :
    (streams.modify n fun s =>
      if s.listening then { s with delivered := s.delivered ++ raws } else s) = streams := by
  refine List.ext_getElem? fun i => ?_
  rw [List.getElem?_modify]
  by_cases hi : n = i
  · subst hi
    cases hs : streams[n]? with
    | none => rfl
    | some s => simp [h s hs]
  · simp [hi]

theorem broadcast_notify (r : Registry) (raw : String) (raws : List String) :
    (r.apply (.notify raw)).broadcast raws = r.broadcast (raw :: raws) := by
  cases hsubscriber : r.subscriber with
  | none => simp [apply, deliverNotification, broadcast, hsubscriber]
  | some n =>
    cases hstream : r.streams[n]? with
    | none =>
      simp only [apply, deliverNotification, broadcast, hsubscriber, hstream]
      exact (modify_of_deaf (raw :: raws) (by simp [hstream])).symm
    | some s =>
      obtain ⟨delivered, listening⟩ := s
      cases listening with
      | true =>
        simp only [apply, deliverNotification, broadcast, hsubscriber, hstream]
        refine List.ext_getElem? fun i => ?_
        rw [List.getElem?_modify, List.getElem?_modify, List.getElem?_modify]
        by_cases hi : n = i
        · subst hi
          simp [hstream]
        · simp [hi]
      | false =>
        simp only [apply, deliverNotification, broadcast, hsubscriber, hstream]
        exact (modify_of_deaf (raw :: raws) (by simp [hstream])).symm

/-- **The streams grow by the notifications and by nothing else.** -/
theorem streams_replay (h : ∀ op ∈ ops, op.Delivers) :
    (r.replay ops).streams = r.broadcast (ops.filterMap Op.notification?) := by
  induction ops generalizing r with
  | nil => exact (broadcast_nil r).symm
  | cons op ops ih =>
    have hrest := ih (r := r.apply op) fun x hx => h x (List.mem_cons_of_mem op hx)
    refine hrest.trans ?_
    cases op with
    | reply id raw => exact broadcast_reply r id raw _
    | notify raw => exact broadcast_notify r raw _
    | register | cancel | fail | subscribe | unsubscribe => cases h _ List.mem_cons_self

end NetconfClient.Registry
