/-
  NetconfClient/Proofs/Dispatch/Requests.lean
  ===========================================
  **The whole life of requests, over any sequence of acts.**

  Callers register, wait, give up and take back; the peer answers; the session
  ends.  An identifier can be used again once it is free, so what is said here
  is said of places in a sequence of acts and not of identifiers:

    * what a request comes to is decided by the first act behind its
      registration that settles its identifier;
    * the identifiers in the table are those of the registrations that no later
      act settles, in the order of their registration (`ids_after`).

  Acts at the desk do nothing to the registry (`registry_act`), so a wait that
  is given up leaves its request where it is.
-/
import NetconfClient.Dispatch.Office
import NetconfClient.Proofs.Dispatch.Trace

namespace NetconfClient

open Text

/-! ## 1. The identifiers in the table -/

namespace Registry

variable {r : Registry} {op : Op} {id : String}

/-- The identifiers in use, the oldest first. -/
def ids (r : Registry) : List String := r.pending.map (·.1)

theorem ticket?_eq_none_iff : r.ticket? id = none ↔ id ∉ r.ids :=
  Association.lookup_eq_none_iff_notMem

theorem ids_release (r : Registry) (id : String) : (r.release id).ids = r.ids.filter (· != id) := by
  rw [ids, ids, List.filter_map]
  rfl

/-- Apart from registrations, an operation takes out of the table what it settles and puts
    nothing in. -/
theorem ids_apply (hop : ∀ x, op ≠ .register x) :
    (r.apply op).ids = r.ids.filter fun x => (settlement x op).isNone := by
  have heffect := effect_apply r op
  revert heffect
  generalize r.apply op = next
  intro heffect
  cases heffect with
  | enter => exact absurd rfl (hop _)
  | @settle op x t o ht hsettles =>
    rw [ids_release]
    apply List.filter_congr
    intro y _
    rw [hsettles y]
    by_cases hy : x = y
    · simp [hy]
    · simp [hy, Ne.symm hy]
  | fail fault =>
    have hempty : (r.deliverError fault).2.ids = [] := rfl
    rw [hempty]
    symm
    rw [List.filter_eq_nil_iff]
    intro y _
    simp [settlement]
  | keep hnone hpending =>
    have hsame : next.ids = r.ids := by rw [ids, hpending, ids]
    rw [hsame]
    symm
    rw [List.filter_eq_self]
    intro y hy
    have hthere : r.ticket? y ≠ none := by
      rw [Ne, ticket?_eq_none_iff]
      simpa using hy
    rw [hnone y hthere]
    rfl

/-- A registration goes through exactly if the session has not ended and the identifier is
    free; its error says which of the two it was. -/
theorem register_cases (r : Registry) (id : String) :
    (r.closed = true ∧ r.register id = .error .notConnected) ∨
    (r.closed = false ∧ id ∈ r.ids ∧ r.register id = .error (.duplicateMessageId id)) ∨
    (r.closed = false ∧ id ∉ r.ids ∧ ∃ t next, r.register id = .ok (t, next) ∧
      next.ids = r.ids ++ [id]) := by
  cases hclosed : r.closed with
  | true =>
    left
    simp [register, hclosed]
  | false =>
    right
    cases hid : r.ticket? id with
    | some t =>
      left
      have hmem : id ∈ r.ids := by
        by_contra hout
        rw [ticket?_eq_none_iff.mpr hout] at hid
        cases hid
      simp [register, hclosed, hid, hmem]
    | none =>
      right
      refine ⟨rfl, ticket?_eq_none_iff.mp hid, ?_⟩
      simp [register, hclosed, hid, ids]

end Registry

namespace Office

open Registry (abandoned)

variable {o : Office} {a : Act} {acts before behind : List Act} {id label : String} {t u : Ticket}

/-! ## 2. What acts do to the registry -/

/-- What an act does to the requests that are registered under an identifier. -/
def settlement (id : String) : Act → Option Outcome
  | .reply (some x) raw => if x = id then some (.ok raw) else none
  | .cancel x => if x = id then some abandoned else none
  | .fail fault => some (.error (.transportClosed fault.closingReason))
  | _ => none

/-- The operations on the registry that an act leads to. -/
def ops (o : Office) : Act → List Registry.Op
  | .register _ id => [.register id]
  | .cancel id => [.cancel id]
  | .reply id raw => [.reply id raw]
  | .fail fault => [.fail fault]
  | .subscribe =>
    if o.registry.closed then []
    else .subscribe :: (o.desk.stream.map fun s => .unsubscribe s.1).toList
  | .unsubscribe => (o.desk.stream.map fun s => .unsubscribe s.1).toList
  | .notify raw => [.notify raw]
  | .collect | .poll _ | .wait _ _ | .forget _ | .elapse _ => []

theorem registry_perform (o : Office) (a : Act) :
    (o.perform a).2.registry = o.registry.replay (o.ops a) := by
  cases a with
  | register label id =>
    simp only [perform, ops, Registry.replay, List.foldl, Registry.apply]
    cases o.registry.register id <;> rfl
  | reply id raw =>
    simp only [perform, ops, Registry.replay, List.foldl, Registry.apply]
    cases o.registry.deliverReply id raw <;> rfl
  | subscribe =>
    by_cases hclosed : o.registry.closed = true
    · simp [perform, ops, Desk.subscribe, Registry.subscribe, hclosed, Registry.replay]
    · simp only [perform, ops, Desk.subscribe, Registry.subscribe, if_neg hclosed]
      cases o.desk.stream <;>
        simp [Registry.replay, Registry.apply, Registry.subscribe, hclosed]
  | unsubscribe =>
    simp only [perform, ops, Desk.unsubscribe]
    cases o.desk.stream <;> rfl
  | cancel | fail | notify | collect | poll | wait | forget | elapse => rfl

theorem registry_act (o : Office) (a : Act) :
    (o.act a).2.2.registry = o.registry.replay (o.ops a) := registry_perform o a

/-- Whether an act is one of the callers alone: looking at requests, waiting for them, giving
    them up, and the passing of time that ends a wait. -/
def Act.isAtDesk : Act → Bool
  | .collect | .poll _ | .wait _ _ | .forget _ | .elapse _ => true
  | _ => false

theorem ops_of_isAtDesk (h : a.isAtDesk = true) : o.ops a = [] := by
  cases a <;> first | rfl | cases h

/-- What is refused changes nothing in the registry. -/
theorem registry_of_refused {fault : Fault} (h : (o.act a).1 = .refused fault) :
    (o.act a).2.2.registry = o.registry := by
  revert h
  simp only [act, settleWaits]
  cases a with
  | register label id =>
    simp only [perform]
    split <;> simp
  | reply id raw =>
    simp only [perform]
    split <;> simp
  | subscribe =>
    simp only [perform]
    split <;> simp
  | cancel | fail | unsubscribe | notify | collect | poll | wait | forget | elapse => simp [perform]

theorem findSome?_ops (o : Office) (a : Act) (id : String) :
    (o.ops a).findSome? (Registry.settlement id) = settlement id a := by
  cases a with
  | subscribe =>
    simp only [ops]
    split
    · rfl
    · cases o.desk.stream <;> simp [Registry.settlement, settlement]
  | unsubscribe =>
    simp only [ops]
    cases o.desk.stream <;> simp [Registry.settlement, settlement]
  | reply x raw => cases x <;> simp [ops, Registry.settlement, settlement]
  | _ => simp [ops, Registry.settlement, settlement]

/-- The operations that acts lead to. -/
def opsOf (o : Office) : List Act → List Registry.Op
  | [] => []
  | a :: later => o.ops a ++ opsOf (o.act a).2.2 later

theorem registry_after (o : Office) (acts : List Act) :
    (o.after acts).registry = o.registry.replay (o.opsOf acts) := by
  induction acts generalizing o with
  | nil => rfl
  | cons a acts ih =>
    rw [after, List.foldl_cons, opsOf, Registry.replay, List.foldl_append]
    have hrest := ih (o.act a).2.2
    rw [registry_act] at hrest
    exact hrest

theorem findSome?_opsOf (o : Office) (acts : List Act) (id : String) :
    (o.opsOf acts).findSome? (Registry.settlement id) = acts.findSome? (settlement id) := by
  induction acts generalizing o with
  | nil => rfl
  | cons a acts ih =>
    rw [opsOf, List.findSome?_append, findSome?_ops, ih, List.findSome?_cons]
    cases settlement id a <;> rfl

theorem after_append (o : Office) (before behind : List Act) :
    o.after (before ++ behind) = (o.after before).after behind :=
  List.foldl_append

theorem wellFormed_after (h : o.registry.WellFormed) (acts : List Act) :
    (o.after acts).registry.WellFormed := by
  rw [registry_after]
  exact h.replay _

/-! ## 3. Registrations that nothing has settled -/

/-- The identifier that an act enters into the table. -/
def entered (o : Office) (a : Act) : List String :=
  match a, (o.act a).1 with
  | .register _ id, .registered _ => [id]
  | _, _ => []

/-- The identifiers of the registrations among acts that no later act settles, in the order
    of the acts. -/
def unsettled (o : Office) : List Act → List String
  | [] => []
  | a :: later =>
    (o.entered a).filter (fun id => (later.findSome? (settlement id)).isNone) ++
      unsettled (o.act a).2.2 later

theorem registered_iff : (∃ t, (o.act (.register label id)).1 = .registered t) ↔
    o.registry.closed = false ∧ id ∉ o.registry.ids := by
  rcases o.registry.register_cases id with ⟨hclosed, h⟩ | ⟨hopen, hid, h⟩ | ⟨hopen, hid, t, next, h, -⟩
  · simp [act, perform, h, hclosed]
  · simp [act, perform, h, hid]
  · simp [act, perform, h, hid, hopen]

theorem ids_act (o : Office) (a : Act) :
    (o.act a).2.2.registry.ids =
      (o.registry.ids.filter fun id => (settlement id a).isNone) ++ o.entered a := by
  have hother : ∀ op, (∀ x, op ≠ .register x) → o.ops a = [op] → o.entered a = [] →
      (o.act a).2.2.registry.ids =
        (o.registry.ids.filter fun id => (settlement id a).isNone) ++ o.entered a := by
    intro op hop hops hentered
    rw [registry_act, hops, hentered, List.append_nil]
    refine (Registry.ids_apply hop).trans (List.filter_congr fun x _ => ?_)
    rw [← findSome?_ops o a x, hops]
    cases hx : Registry.settlement x op <;> simp [hx]
  cases a with
  | register label id =>
    have hall : (o.registry.ids.filter fun x => (settlement x (.register label id)).isNone) =
        o.registry.ids := by
      simp [settlement]
    rw [hall]
    rcases o.registry.register_cases id with ⟨-, h⟩ | ⟨-, -, h⟩ | ⟨-, -, t, next, h, hids⟩
    · simp [act, perform, settleWaits, entered, h]
    · simp [act, perform, settleWaits, entered, h]
    · simpa [act, perform, settleWaits, entered, h] using hids
  | cancel id => exact hother (.cancel id) nofun rfl rfl
  | reply id raw => exact hother (.reply id raw) nofun rfl rfl
  | fail fault => exact hother (.fail fault) nofun rfl rfl
  | notify raw => exact hother (.notify raw) nofun rfl rfl
  | subscribe =>
    have hpending : (o.act .subscribe).2.2.registry.pending = o.registry.pending := by
      rw [registry_act]
      simp only [ops]
      split
      · rfl
      · next hclosed =>
        cases o.desk.stream <;>
          simp [Registry.replay, Registry.apply, Registry.subscribe, Registry.unsubscribe, hclosed]
    simp [Registry.ids, hpending, settlement, entered]
  | unsubscribe =>
    have hpending : (o.act .unsubscribe).2.2.registry.pending = o.registry.pending := by
      rw [registry_act]
      simp only [ops]
      cases o.desk.stream <;> rfl
    simp [Registry.ids, hpending, settlement, entered]
  | collect | poll | wait | forget | elapse =>
    rw [registry_act]
    simp [ops, Registry.replay, settlement, entered]

/-- **The table holds the registrations that no later act has settled, in their order.** -/
theorem ids_after (o : Office) (acts : List Act) :
    (o.after acts).registry.ids =
      (o.registry.ids.filter fun id => (acts.findSome? (settlement id)).isNone) ++
        o.unsettled acts := by
  induction acts generalizing o with
  | nil => simp [after, unsettled]
  | cons a acts ih =>
    have hsplit : ∀ id, ((a :: acts).findSome? (settlement id)).isNone =
        ((acts.findSome? (settlement id)).isNone && (settlement id a).isNone) := by
      intro id
      rw [List.findSome?_cons]
      cases settlement id a <;> simp
    have hrest := ih (o.act a).2.2
    rw [ids_act, List.filter_append, List.filter_filter, List.append_assoc] at hrest
    simp only [hsplit]
    exact hrest

theorem closed_after (h : o.registry.closed = false) (acts : List Act) :
    (o.after acts).registry.closed = true ↔ ∃ fault, .fail fault ∈ acts := by
  have hop : ∀ (p : Office) (a : Act), (p.act a).2.2.registry.closed = true ↔
      p.registry.closed = true ∨ ∃ fault, a = .fail fault := by
    intro p a
    rw [registry_act]
    cases a with
    | subscribe =>
      simp only [ops]
      split
      · simp [Registry.replay]
      · cases p.desk.stream <;>
          simp [Registry.replay, Registry.closed_apply, Registry.Op.fault?]
    | unsubscribe =>
      simp only [ops]
      cases p.desk.stream <;> simp [Registry.replay, Registry.closed_apply, Registry.Op.fault?]
    | _ => simp [ops, Registry.replay, Registry.closed_apply, Registry.Op.fault?]
  have hall : ∀ (p : Office), (p.after acts).registry.closed = true ↔
      p.registry.closed = true ∨ ∃ fault, .fail fault ∈ acts := by
    induction acts with
    | nil => simp [after]
    | cons a acts ih =>
      intro p
      have hrest := ih (p.act a).2.2
      rw [hop] at hrest
      refine hrest.trans ?_
      simp only [List.mem_cons, exists_or, or_assoc, eq_comm]
  rw [hall, h]
  simp

/-! ## 4. Completions -/

/-- An act completes a request. -/
def Completes (o : Office) (a : Act) (t : Ticket) : Prop :=
  o.registry.outcome? t = none ∧ (o.act a).2.2.registry.outcome? t ≠ none

/-- What a request has come to stays. -/
theorem outcome?_after_of_settled {outcome : Outcome} (h : o.registry.WellFormed)
    (ht : o.registry.outcome? t = some outcome) (acts : List Act) :
    (o.after acts).registry.outcome? t = some outcome := by
  rw [registry_after]
  exact Registry.outcome?_replay_of_settled h ht _

/-- A reply completes the request that is registered under its identifier and no other. -/
theorem completes_reply_iff {id : Option String} {raw : String} (h : o.registry.WellFormed) :
    Completes o (.reply id raw) t ↔ ∃ x, id = some x ∧ o.registry.ticket? x = some t := by
  have hnext : (o.act (.reply id raw)).2.2.registry = o.registry.apply (.reply id raw) :=
    registry_act o _
  rw [Completes, hnext]
  cases id with
  | none => simp [Registry.apply, Registry.deliverReply]
  | some x =>
    simp only [Option.some.injEq, exists_eq_left']
    cases hx : o.registry.ticket? x with
    | none => simp [Registry.apply, Registry.deliverReply, hx]
    | some u =>
      have houtcomes : (o.registry.apply (.reply (some x) raw)).outcomes =
          (o.registry.settle u (.ok raw)).outcomes := by
        simp [Registry.apply, Registry.deliverReply, hx, Registry.release]
      by_cases hu : u = t
      · subst hu
        have hafter := Registry.outcomes_settle o.registry u u (.ok raw)
        rw [if_pos rfl, if_pos (h.lt_length hx)] at hafter
        have hsettled : (o.registry.apply (.reply (some x) raw)).outcome? u = some (.ok raw) := by
          rw [Registry.outcome?, houtcomes, hafter]
          rfl
        simp [Registry.outcome?_of_pending h hx, hsettled]
      · -- the outcomes of all other requests are what they were
        have hafter := Registry.outcomes_settle o.registry u t (.ok raw)
        rw [if_neg hu] at hafter
        simp [Registry.outcome?, houtcomes, hafter, hu]

theorem accepted_iff {id : Option String} {raw : String} :
    (o.act (.reply id raw)).1 = .accepted ↔ ∃ x t, id = some x ∧ o.registry.ticket? x = some t := by
  cases id with
  | none => simp [act, perform, Registry.deliverReply]
  | some x => cases hx : o.registry.ticket? x <;> simp [act, perform, Registry.deliverReply, hx]

/-- What a registration leaves. -/
theorem ticket?_of_registered (h : (o.act (.register label id)).1 = .registered t) :
    (o.act (.register label id)).2.2.registry.ticket? id = some t := by
  revert h
  simp only [act, perform, settleWaits]
  cases hregister : o.registry.register id with
  | error fault => simp
  | ok r =>
    obtain ⟨u, next⟩ := r
    simp only [Answer.registered.injEq]
    intro hu
    subst hu
    exact (Registry.ticket?_of_register hregister).2.2

/-- The first act behind a registration that settles its identifier says what the request
    comes to; without one it is still in the table. -/
theorem outcome?_after_of_registered (h : o.registry.WellFormed)
    (ht : (o.act (.register label id)).1 = .registered t) (behind : List Act) :
    let p := o.after (.register label id :: behind)
    p.registry.outcome? t = behind.findSome? (settlement id) ∧
      (p.registry.ticket? id = some t ↔ behind.findSome? (settlement id) = none) := by
  intro p
  have hticket := ticket?_of_registered ht
  have hwell : (o.act (.register label id)).2.2.registry.WellFormed := by
    rw [registry_act]
    exact h.replay _
  have hp : p.registry = _ := registry_after (o.act (.register label id)).2.2 behind
  have houtcome : p.registry.outcome? t = behind.findSome? (settlement id) := by
    rw [hp, Registry.outcome?_replay hwell hticket, findSome?_opsOf]
  refine ⟨houtcome, ?_⟩
  constructor
  · intro hstill
    have hlater : p.registry.WellFormed := wellFormed_after h (.register label id :: behind)
    rw [← houtcome]
    exact Registry.outcome?_of_pending hlater hstill
  · intro hnone
    rw [hp]
    exact Registry.ticket?_replay hwell hticket _ ((findSome?_opsOf _ _ _).trans hnone)

/-- What a wait that nothing has settled comes to by a given time. -/
def overdue? (limit : Option (Duration × Duration)) (now : Duration) : Option Outcome :=
  match limit with
  | some (span, deadline) =>
    if deadline.nanos ≤ now.nanos then some (.error (.timeout span)) else none
  | none => none

theorem result?_eq (w : Wait) (r : Registry) (now : Duration) :
    Desk.Wait.result? w r now = (r.outcome? w.ticket).or (overdue? w.limit now) := by
  rw [Desk.Wait.result?]
  cases r.outcome? w.ticket with
  | some outcome => rfl
  | none => rfl

/-- **Every request comes to what the first act says that settles it**, whoever still waits for
    it, and to nothing else; what is left in the table are the others; and what is refused or
    given up changes nothing. -/
theorem requests_settled_in_turn (acts : List Act) :
    let o := opened.after acts
    (∀ before label id t behind, acts = before ++ .register label id :: behind →
      ((opened.after before).act (.register label id)).1 = .registered t →
      o.registry.outcome? t = behind.findSome? (settlement id) ∧
      (o.registry.ticket? id = some t ↔ behind.findSome? (settlement id) = none) ∧
      ∀ caption limit, Desk.Wait.result? ⟨caption, t, limit⟩ o.registry o.now =
        (behind.findSome? (settlement id)).or (overdue? limit o.now)) ∧
    (∀ before a between b behind t, acts = before ++ a :: (between ++ b :: behind) →
      Completes (opened.after before) a t →
      ¬ Completes (opened.after (before ++ a :: between)) b t) ∧
    (∀ id raw t u, Completes o (.reply id raw) t → Completes o (.reply id raw) u → t = u) ∧
    (∀ id raw, (o.act (.reply id raw)).1 = .accepted ↔ ∃ t, Completes o (.reply id raw) t) ∧
    o.registry.size = (opened.unsettled acts).length ∧
    (∀ label id, (∃ t, (o.act (.register label id)).1 = .registered t) ↔
      (∀ fault, .fail fault ∉ acts) ∧ id ∉ opened.unsettled acts) ∧
    (∀ fault, (o.act (.fail fault)).1 = .failed o.registry.size ∧
      (o.act (.fail fault)).2.2.registry.size = 0) ∧
    (∀ a fault, (o.act a).1 = .refused fault → (o.act a).2.2.registry = o.registry) ∧
    (∀ a, a.isAtDesk = true → (o.act a).2.2.registry = o.registry) := by
  intro o
  have hempty : opened.registry.WellFormed := Registry.wellFormed_empty
  have hwell : o.registry.WellFormed := wellFormed_after hempty acts
  have hids : o.registry.ids = opened.unsettled acts := ids_after opened acts
  refine ⟨?_, ?_, ?_, ?_, ?_, ?_, ?_, ?_, ?_⟩
  · intro before label id t behind hacts ht
    obtain ⟨houtcome, hticket⟩ :=
      outcome?_after_of_registered (wellFormed_after hempty before) ht behind
    have ho : o = (opened.after before).after (.register label id :: behind) := by
      rw [← after_append, ← hacts]
    rw [← ho] at houtcome hticket
    refine ⟨houtcome, hticket, ?_⟩
    intro caption limit
    rw [result?_eq, houtcome]
  · intro before a between b behind t hacts hfirst hsecond
    have hnext := wellFormed_after hempty (before ++ [a])
    rw [after_append] at hnext
    obtain ⟨outcome, houtcome⟩ := Option.ne_none_iff_exists'.mp hfirst.2
    have hlater := outcome?_after_of_settled hnext houtcome between
    have hsame : opened.after (before ++ a :: between) =
        ((opened.after before).after [a]).after between := by
      rw [← after_append, ← after_append]
      rfl
    rw [Completes, hsame, hlater] at hsecond
    cases hsecond.1
  · intro id raw t u ht hu
    obtain ⟨x, rfl, hx⟩ := (completes_reply_iff hwell).mp ht
    obtain ⟨y, hy, hu⟩ := (completes_reply_iff hwell).mp hu
    cases hy
    rw [hx] at hu
    exact Option.some.inj hu
  · intro id raw
    rw [accepted_iff]
    constructor
    · rintro ⟨x, t, hid, hx⟩
      exact ⟨t, (completes_reply_iff hwell).mpr ⟨x, hid, hx⟩⟩
    · rintro ⟨t, ht⟩
      obtain ⟨x, hid, hx⟩ := (completes_reply_iff hwell).mp ht
      exact ⟨x, t, hid, hx⟩
  · rw [← hids, Registry.ids, List.length_map]
    rfl
  · intro label id
    rw [registered_iff, hids, ← Bool.not_eq_true, closed_after (h := rfl) acts, not_exists]
  · intro fault
    exact ⟨rfl, rfl⟩
  · intro a fault h
    exact registry_of_refused h
  · intro a h
    rw [registry_act, ops_of_isAtDesk h]
    rfl

/-- An identifier that is used three times: its first caller gives up before the reply comes,
    the second takes the request back, and the end of the session is the end of the third. -/
theorem requests_settled_in_turn_reused :
    let acts : List Act := [.register "first" "a", .wait "first" (some ⟨5⟩), .elapse ⟨5⟩,
      .reply none "lost", .reply (some "b") "lost", .reply (some "a") "one", .register "second" "a",
      .register "twice" "a", .forget "second", .cancel "a", .register "third" "a",
      .fail .unexpectedEnd]
    let o := opened.after acts
    o.registry.outcome? 0 = some (.ok "one") ∧
    o.registry.outcome? 1 = some (.error (.transportClosed "dispatch registry dropped")) ∧
    o.registry.outcome? 2 = some (.error (.transportClosed "transport closed unexpectedly")) ∧
    o.registry.size = 0 ∧ (o.act (.reply (some "a") "late")).1 ≠ .accepted := by
  intro acts o
  obtain ⟨hcomes, -, -, haccepted, hsize, -, -, -, -⟩ := requests_settled_in_turn acts
  refine ⟨?_, ?_, ?_, ?_, ?_⟩
  · exact (hcomes [] "first" "a" 0 _ rfl rfl).1
  · exact (hcomes (acts.take 6) "second" "a" 1 _ rfl rfl).1
  · exact (hcomes (acts.take 10) "third" "a" 2 _ rfl rfl).1
  · exact hsize
  · rw [Ne, haccepted]
    rintro ⟨t, ht⟩
    exact ht.2 ht.1

end Office

end NetconfClient
