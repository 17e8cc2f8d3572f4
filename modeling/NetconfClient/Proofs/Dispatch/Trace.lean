/-
  NetconfClient/Proofs/Dispatch/Trace.lean
  ========================================
  **The registry under any sequence of operations.**

  An operation that is refused changes nothing, so a sequence of them can be
  replayed from any registry.  Two facts carry everything that is said about
  sessions:

    * every operation keeps the registry well formed (`WellFormed.apply`): the
      tickets in the table are exactly the unsettled ones, and no identifier is
      in use twice;
    * what a request comes to is said by the first operation behind its
      registration that settles its identifier (`outcome?_replay`).
-/
import NetconfClient.Dispatch.Registry
import NetconfClient.Proofs.Association

namespace NetconfClient.Registry

open Association

/-! ## 1. Operations -/

/-- What is done to a registry. -/
inductive Op where
  | register (id : String)
  | cancel (id : String)
  | reply (id : Option String) (raw : String)
  /-- The session ends. -/
  | fail (fault : Fault)
  | notify (raw : String)
  | subscribe
  | unsubscribe (stream : Nat)
  deriving DecidableEq, Repr

/-- The registry after an operation. -/
def apply (r : Registry) : Op → Registry
  | .register id =>
    match r.register id with
    | .ok (_, next) => next
    | .error _ => r
  | .cancel id => (r.cancel id).2
  | .reply id raw =>
    match r.deliverReply id raw with
    | .ok next => next
    | .error _ => r
  | .fail fault => (r.deliverError fault).2
  | .notify raw => (r.deliverNotification raw).2
  | .subscribe =>
    match r.subscribe with
    | .ok (_, next) => next
    | .error _ => r
  | .unsubscribe stream => r.unsubscribe stream

/-- The registry after operations, one behind the other. -/
def replay (r : Registry) (ops : List Op) : Registry := ops.foldl apply r

/-- What an operation does to the request that is registered under an identifier. -/
def settlement (id : String) : Op → Option Outcome
  | .cancel x => if x = id then some abandoned else none
  | .reply (some x) raw => if x = id then some (.ok raw) else none
  | .fail fault => some (.error (.transportClosed fault.closingReason))
  | _ => none

/-- What an operation can do to the requests: enter one, settle one, settle all of them,
    or nothing, when it settles no request that is there. -/
inductive Effect (r : Registry) : Op → Registry → Prop where
  | enter {id : String} (hopen : r.closed = false) (hfree : r.ticket? id = none) :
    Effect r (.register id) { r with
      pending := r.pending ++ [(id, r.outcomes.length)]
      outcomes := r.outcomes ++ [none] }
  | settle {op : Op} {id : String} {t : Ticket} {o : Outcome} (ht : r.ticket? id = some t)
      (hop : ∀ x, settlement x op = if id = x then some o else none) :
    Effect r op ((r.settle t o).release id)
  | fail (fault : Fault) : Effect r (.fail fault) (r.deliverError fault).2
  | keep {op : Op} {next : Registry}
      (hop : ∀ x, r.ticket? x ≠ none → settlement x op = none)
      (hpending : next.pending = r.pending) (houtcomes : next.outcomes = r.outcomes)
      (hclosed : next.closed = r.closed) :
    Effect r op next

theorem effect_apply (r : Registry) (op : Op) : Effect r op (r.apply op) := by
  cases op with
  | register id =>
    by_cases hclosed : r.closed = true
    · have hsame : r.apply (.register id) = r := by
        rw [apply, register, if_pos hclosed]
      rw [hsame]
      exact .keep (fun _ _ => rfl) rfl rfl rfl
    · cases hid : r.ticket? id with
      | some t =>
        have hsame : r.apply (.register id) = r := by
          rw [apply, register, if_neg hclosed, hid]
        rw [hsame]
        exact .keep (fun _ _ => rfl) rfl rfl rfl
      | none =>
        have henter := Effect.enter (r := r) (Bool.eq_false_iff.mpr hclosed) hid
        have hnext : r.apply (.register id) = { r with
            pending := r.pending ++ [(id, r.outcomes.length)]
            outcomes := r.outcomes ++ [none] } := by
          rw [apply, register, if_neg hclosed, hid]
        rwa [hnext]
  | cancel id =>
    simp only [apply, cancel]
    cases hid : r.ticket? id with
    | some t => exact .settle hid fun x => rfl
    | none =>
      -- whatever is in the table is registered under another identifier
      refine .keep (fun x hx => ?_) rfl rfl rfl
      rw [settlement, if_neg]
      rintro rfl
      exact hx hid
  | reply id raw =>
    cases id with
    | none => exact .keep (fun _ _ => rfl) rfl rfl rfl
    | some id =>
      simp only [apply, deliverReply]
      cases hid : r.ticket? id with
      | some t => exact .settle hid fun x => rfl
      | none =>
        refine .keep (fun x hx => ?_) rfl rfl rfl
        rw [settlement, if_neg]
        rintro rfl
        exact hx hid
  | fail fault => exact .fail fault
  | notify raw =>
    simp only [apply, deliverNotification]
    split
    · exact .keep (fun _ _ => rfl) rfl rfl rfl
    · split <;> exact .keep (fun _ _ => rfl) rfl rfl rfl
  | subscribe =>
    by_cases hclosed : r.closed = true
    · have hsame : r.apply .subscribe = r := by rw [apply, subscribe, if_pos hclosed]
      rw [hsame]
      exact .keep (fun _ _ => rfl) rfl rfl rfl
    · have hnext : r.apply .subscribe = { r with
          subscriber := some r.streams.length
          streams := r.streams ++ [⟨[], true⟩] } := by
        rw [apply, subscribe, if_neg hclosed]
      rw [hnext]
      exact .keep (fun _ _ => rfl) rfl rfl rfl
  | unsubscribe stream => exact .keep (fun _ _ => rfl) rfl rfl rfl

/-! ## 2. The parts of operations -/

variable {r : Registry} {id x : String} {t u : Ticket} {o : Outcome}

theorem outcomes_settle (r : Registry) (t u : Ticket) (o : Outcome) :
    (r.settle t o).outcomes[u]? =
      if t = u then if t < r.outcomes.length then some (some o) else none else r.outcomes[u]? := by
  rw [settle, List.getElem?_set]

theorem ticket?_release_of_ne (h : x ≠ id) : (r.release id).ticket? x = r.ticket? x :=
  lookup_filter_of_ne h

theorem outcomes_settleAll (r : Registry) (o : Outcome) (ts : List Ticket)
    (hts : ∀ t ∈ ts, t < r.outcomes.length) (u : Ticket) :
    (r.settleAll o ts).outcomes[u]? = if u ∈ ts then some (some o) else r.outcomes[u]? := by
  induction ts generalizing r with
  | nil => simp [settleAll]
  | cons t ts ih =>
    have hlen : (r.settle t o).outcomes.length = r.outcomes.length := by
      rw [settle, List.length_set]
    have hmore : ∀ v ∈ ts, v < (r.settle t o).outcomes.length := by
      intro v hv
      rw [hlen]
      exact hts v (List.mem_cons_of_mem t hv)
    rw [settleAll, ih (r.settle t o) hmore, outcomes_settle, if_pos (hts t List.mem_cons_self)]
    by_cases hu : u ∈ ts
    · rw [if_pos hu, if_pos (List.mem_cons_of_mem t hu)]
    · by_cases htu : t = u
      · rw [if_neg hu, if_pos htu, if_pos (by simp [htu])]
      · rw [if_neg hu, if_neg htu, if_neg (by simp [hu, Ne.symm htu])]

/-! ## 3. Well-formed registries -/

/-- The tickets in the table are the unsettled ones, and no identifier is in use twice. -/
structure WellFormed (r : Registry) : Prop where
  ids : (r.pending.map (·.1)).Nodup
  tickets : (r.pending.map (·.2)).Nodup
  unsettled_iff : ∀ t, r.outcomes[t]? = some none ↔ t ∈ r.pending.map (·.2)
  closed_empty : r.closed = true → r.pending = []

theorem wellFormed_empty : empty.WellFormed :=
  ⟨List.nodup_nil, List.nodup_nil, fun t => by simp [empty], fun _ => rfl⟩

namespace WellFormed

theorem ticket?_iff (h : r.WellFormed) : r.ticket? id = some t ↔ (id, t) ∈ r.pending :=
  lookup_eq_some_iff_mem h.ids

theorem unsettled (h : r.WellFormed) (ht : r.ticket? id = some t) : r.outcomes[t]? = some none :=
  (h.unsettled_iff t).mpr (List.mem_map_of_mem (h.ticket?_iff.mp ht))

theorem lt_length (h : r.WellFormed) (ht : r.ticket? id = some t) : t < r.outcomes.length :=
  (List.getElem?_eq_some_iff.mp (h.unsettled ht)).1

theorem ticket_lt (h : r.WellFormed) (hu : u ∈ r.pending.map (·.2)) : u < r.outcomes.length :=
  (List.getElem?_eq_some_iff.mp ((h.unsettled_iff u).mpr hu)).1

theorem enter (h : r.WellFormed) (hopen : r.closed = false) (hfree : r.ticket? id = none) :
    WellFormed { r with
      pending := r.pending ++ [(id, r.outcomes.length)]
      outcomes := r.outcomes ++ [none] } where
  ids := by
    rw [List.map_append, List.nodup_append]
    refine ⟨h.ids, List.nodup_singleton id, fun y hy z hz => ?_⟩
    rw [List.mem_singleton.mp hz]
    exact fun heq : y = id => lookup_eq_none_iff_notMem.mp hfree (heq ▸ hy)
  tickets := by
    rw [List.map_append, List.nodup_append]
    refine ⟨h.tickets, List.nodup_singleton _, fun y hy z hz => ?_⟩
    rw [List.mem_singleton.mp hz]
    exact Nat.ne_of_lt (h.ticket_lt hy)
  unsettled_iff := by
    intro u
    rw [List.map_append, List.mem_append, ← h.unsettled_iff u]
    -- an earlier ticket, the new one, or one that has not been given out
    rcases Nat.lt_trichotomy u r.outcomes.length with hlt | heq | hgt
    · rw [List.getElem?_append_left hlt]
      simp [Nat.ne_of_lt hlt]
    · simp [heq]
    · rw [List.getElem?_eq_none (by simp; omega), List.getElem?_eq_none (by omega)]
      simp [Nat.ne_of_gt hgt]
  closed_empty := by
    intro hclosed
    rw [hopen] at hclosed
    cases hclosed

theorem settle_release (h : r.WellFormed) (ht : r.ticket? id = some t) (o : Outcome) :
    ((r.settle t o).release id).WellFormed where
  ids := nodup_map_filter h.ids _
  tickets := nodup_map_filter h.tickets _
  unsettled_iff := by
    intro u
    have hmem := h.ticket?_iff.mp ht
    change (r.settle t o).outcomes[u]? = some none ↔
      u ∈ (r.pending.filter (·.1 != id)).map (·.2)
    rw [outcomes_settle, if_pos (h.lt_length ht)]
    by_cases htu : t = u
    · -- the settled ticket has left the table
      subst htu
      rw [if_pos rfl]
      simp only [Option.some.injEq, reduceCtorEq, false_iff]
      intro hu
      obtain ⟨e, he, heu⟩ := List.mem_map.mp hu
      obtain ⟨hin, hne⟩ := List.mem_filter.mp he
      have : e = (id, t) := List.inj_on_of_nodup_map h.tickets hin hmem heu
      simp [this] at hne
    · rw [if_neg htu, h.unsettled_iff u]
      constructor
      · intro hu
        obtain ⟨e, he, heu⟩ := List.mem_map.mp hu
        refine List.mem_map.mpr ⟨e, List.mem_filter.mpr ⟨he, ?_⟩, heu⟩
        rw [bne_iff_ne]
        intro hid
        have : e = (id, t) := List.inj_on_of_nodup_map h.ids he hmem hid
        exact htu (by rw [← heu, this])
      · intro hu
        obtain ⟨e, he, heu⟩ := List.mem_map.mp hu
        exact List.mem_map.mpr ⟨e, (List.mem_filter.mp he).1, heu⟩
  closed_empty := by
    intro hclosed
    have hnil : r.pending = [] := h.closed_empty hclosed
    change r.pending.filter _ = []
    rw [hnil]
    rfl

theorem deliverError (h : r.WellFormed) (fault : Fault) :
    (r.deliverError fault).2.WellFormed where
  ids := List.nodup_nil
  tickets := List.nodup_nil
  unsettled_iff := by
    intro u
    change (r.settleAll _ (r.pending.map (·.2))).outcomes[u]? = some none ↔ u ∈ []
    rw [outcomes_settleAll _ _ _ fun t ht => h.ticket_lt ht]
    by_cases hu : u ∈ r.pending.map (·.2)
    · rw [if_pos hu]
      simp
    · rw [if_neg hu, h.unsettled_iff u]
      simp [hu]
  closed_empty := fun _ => rfl

/-- **Every operation keeps a registry well formed.** -/
theorem apply (h : r.WellFormed) (op : Op) : (r.apply op).WellFormed := by
  have heffect := effect_apply r op
  -- from here on only the effect matters, not how the operation comes by it
  revert heffect
  generalize r.apply op = next
  intro heffect
  cases heffect with
  | enter hopen hfree => exact h.enter hopen hfree
  | settle ht hop => exact h.settle_release ht _
  | fail fault => exact h.deliverError fault
  | keep hop hpending houtcomes hclosed =>
    refine ⟨?_, ?_, ?_, ?_⟩
    · rw [hpending]
      exact h.ids
    · rw [hpending]
      exact h.tickets
    · rw [hpending, houtcomes]
      exact h.unsettled_iff
    · rw [hpending, hclosed]
      exact h.closed_empty

theorem replay (h : r.WellFormed) (ops : List Op) : (r.replay ops).WellFormed := by
  induction ops generalizing r with
  | nil => exact h
  | cons op ops ih => exact ih (h.apply op)

end WellFormed

/-! ## 4. What a request comes to -/

/-- A settled ticket stays as it is. -/
theorem outcomes_apply_of_settled (h : r.WellFormed) (ht : r.outcomes[t]? = some (some o))
    (op : Op) : (r.apply op).outcomes[t]? = some (some o) := by
  have heffect := effect_apply r op
  revert heffect
  generalize r.apply op = next
  intro heffect
  cases heffect with
  | enter hopen hfree =>
    have hlt : t < r.outcomes.length := (List.getElem?_eq_some_iff.mp ht).1
    exact (List.getElem?_append_left hlt).trans ht
  | @settle op id u o' hu hop =>
    -- the ticket that is settled now was in the table, this one was not
    have hne : u ≠ t := by
      rintro rfl
      rw [h.unsettled hu] at ht
      cases ht
    change (r.settle u o').outcomes[t]? = _
    rw [outcomes_settle, if_neg hne, ht]
  | fail fault =>
    have hout : t ∉ r.pending.map (·.2) := by
      rw [← h.unsettled_iff t, ht]
      simp
    change (r.settleAll _ (r.pending.map (·.2))).outcomes[t]? = _
    rw [outcomes_settleAll _ _ _ fun u hu => h.ticket_lt hu, if_neg hout, ht]
  | keep hop hpending houtcomes hclosed => rw [houtcomes, ht]

/-- **A request stays in the table until an operation settles its identifier, and comes to
    what that operation says.** -/
theorem apply_of_pending (h : r.WellFormed) (ht : r.ticket? id = some t) (op : Op) :
    match settlement id op with
    | some o => (r.apply op).outcomes[t]? = some (some o)
    | none => (r.apply op).ticket? id = some t := by
  have heffect := effect_apply r op
  revert heffect
  generalize r.apply op = next
  intro heffect
  cases heffect with
  | @enter x hopen hfree =>
    change (r.pending ++ [(x, r.outcomes.length)]).lookup id = some t
    rw [List.lookup_append, show r.pending.lookup id = some t from ht]
    rfl
  | @settle op x u o hu hop =>
    rw [hop id]
    by_cases hid : x = id
    · subst hid
      rw [hu] at ht
      cases ht
      rw [if_pos rfl]
      change (r.settle t o).outcomes[t]? = some (some o)
      rw [outcomes_settle, if_pos rfl, if_pos (h.lt_length hu)]
    · rw [if_neg hid]
      exact (ticket?_release_of_ne (r := r.settle u o) (Ne.symm hid)).trans ht
  | fail fault =>
    have hin : t ∈ r.pending.map (·.2) := List.mem_map_of_mem (h.ticket?_iff.mp ht)
    change (r.settleAll _ (r.pending.map (·.2))).outcomes[t]? = _
    rw [outcomes_settleAll _ _ _ fun u hu => h.ticket_lt hu, if_pos hin]
  | keep hop hpending houtcomes hclosed =>
    rw [hop id (by rw [ht]; simp)]
    change next.pending.lookup id = some t
    rw [hpending]
    exact ht

theorem outcomes_replay_of_settled (h : r.WellFormed) (ht : r.outcomes[t]? = some (some o))
    (ops : List Op) : (r.replay ops).outcomes[t]? = some (some o) := by
  induction ops generalizing r with
  | nil => exact ht
  | cons op ops ih => exact ih (h.apply op) (outcomes_apply_of_settled h ht op)

theorem outcome?_of_settled (ht : r.outcomes[t]? = some (some o)) : r.outcome? t = some o := by
  rw [outcome?, ht]
  rfl

/-- What a request has come to stays. -/
theorem outcome?_replay_of_settled (h : r.WellFormed) (ht : r.outcome? t = some o)
    (ops : List Op) : (r.replay ops).outcome? t = some o := by
  rw [outcome?, Option.join_eq_some_iff] at ht
  exact outcome?_of_settled (outcomes_replay_of_settled h ht ops)

theorem outcome?_of_pending (h : r.WellFormed) (ht : r.ticket? id = some t) :
    r.outcome? t = none := by
  rw [outcome?, h.unsettled ht]
  rfl

/-- **What a request comes to is said by the first operation that settles its identifier.** -/
theorem outcome?_replay (h : r.WellFormed) (ht : r.ticket? id = some t) (ops : List Op) :
    (r.replay ops).outcome? t = ops.findSome? (settlement id) := by
  induction ops generalizing r with
  | nil => exact outcome?_of_pending h ht
  | cons op ops ih =>
    have hstep := apply_of_pending h ht op
    rw [List.findSome?_cons]
    cases hop : settlement id op with
    | some o =>
      rw [hop] at hstep
      exact outcome?_of_settled (outcomes_replay_of_settled (h.apply op) hstep ops)
    | none =>
      rw [hop] at hstep
      exact ih (h.apply op) hstep

/-- A request that nothing has settled is still in the table. -/
theorem ticket?_replay (h : r.WellFormed) (ht : r.ticket? id = some t) (ops : List Op)
    (hnone : ops.findSome? (settlement id) = none) : (r.replay ops).ticket? id = some t := by
  induction ops generalizing r with
  | nil => exact ht
  | cons op ops ih =>
    rw [List.findSome?_cons] at hnone
    have hstep := apply_of_pending h ht op
    cases hop : settlement id op with
    | some o =>
      rw [hop] at hnone
      cases hnone
    | none =>
      rw [hop] at hstep hnone
      exact ih (h.apply op) hstep hnone

theorem ticket?_of_register {next : Registry} (h : r.register id = .ok (t, next)) :
    r.ticket? id = none ∧ next = r.apply (.register id) ∧ next.ticket? id = some t := by
  have hnext : next = r.apply (.register id) := by rw [apply, h]
  rw [register] at h
  split at h
  · cases h
  · cases hfree : r.ticket? id with
    | some u =>
      rw [hfree] at h
      cases h
    | none =>
      rw [hfree] at h
      refine ⟨rfl, hnext, ?_⟩
      cases h
      change (r.pending ++ [(id, r.outcomes.length)]).lookup id = _
      rw [List.lookup_append, show r.pending.lookup id = none from hfree]
      simp

/-- Only a registration puts an identifier into the table. -/
theorem ticket?_apply_of_free {op : Op} (hfree : r.ticket? id = none) (hop : op ≠ .register id) :
    (r.apply op).ticket? id = none := by
  have heffect := effect_apply r op
  revert heffect
  generalize r.apply op = next
  intro heffect
  cases heffect with
  | @enter x hopen hx =>
    have hne : id ≠ x := fun heq => hop (heq ▸ rfl)
    change (r.pending ++ [(x, r.outcomes.length)]).lookup id = none
    rw [List.lookup_append, show r.pending.lookup id = none from hfree, List.lookup_cons,
      beq_false_of_ne hne]
    rfl
  | settle ht hsettles =>
    rw [ticket?, lookup_eq_none_iff_notMem] at hfree ⊢
    intro hmem
    exact hfree ((List.filter_sublist.map _).subset hmem)
  | fail fault => rfl
  | keep hnone hpending houtcomes hclosed =>
    rw [ticket?, hpending]
    exact hfree

/-- An identifier that is free again has lost its request. -/
theorem outcome?_replay_of_free (h : r.WellFormed) (ht : r.ticket? id = some t) (ops : List Op)
    (hfree : (r.replay ops).ticket? id = none) : ∃ o, (r.replay ops).outcome? t = some o := by
  rw [outcome?_replay h ht]
  cases hsettled : ops.findSome? (settlement id) with
  | none =>
    rw [ticket?_replay h ht ops hsettled] at hfree
    cases hfree
  | some o => exact ⟨o, rfl⟩

/-! ## 5. The end of the session -/

/-- The fault with which an operation ends the session. -/
def Op.fault? : Op → Option Fault
  | fail fault => some fault
  | _ => none

/-- Only the end of the session closes a registry, and nothing opens it again. -/
theorem closed_apply (r : Registry) (op : Op) :
    (r.apply op).closed = (r.closed || op.fault?.isSome) := by
  cases op with
  | register id =>
    simp only [apply, register]
    split
    · next heq =>
      split at heq
      · cases heq
      · split at heq <;> cases heq
        simp [Op.fault?]
    · simp [Op.fault?]
  | cancel id =>
    simp only [apply, cancel]
    cases r.ticket? id <;> simp [Op.fault?, release, settle]
  | reply id raw =>
    cases id with
    | none => simp [apply, deliverReply, Op.fault?]
    | some id =>
      simp only [apply, deliverReply]
      cases r.ticket? id <;> simp [Op.fault?, release, settle]
  | fail fault => simp [apply, deliverError, Op.fault?]
  | notify raw =>
    simp only [apply, deliverNotification]
    split
    · simp [Op.fault?]
    · split <;> simp [Op.fault?]
  | subscribe =>
    simp only [apply, subscribe]
    split
    · next heq =>
      split at heq <;> cases heq
      simp [Op.fault?]
    · simp [Op.fault?]
  | unsubscribe stream => simp [apply, unsubscribe, Op.fault?]

end NetconfClient.Registry
