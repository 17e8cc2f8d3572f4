/-
  NetconfClient/Proofs/Dispatch/Notifications.lean
  ================================================
  **What a subscriber hears, over any sequence of operations.**

  Notifications and requests share a registry and nothing else: each side of it
  is what it would be if the operations of the other had never been
  (`onAir_replay_filter`, `requests_replay_filter`).

  What becomes of a stream is decided by whether it is heard at the moment.  An
  operation adds its notification to a stream that is heard and to no other
  (`stream_apply`), and a stream that is not heard is never heard again
  (`hears_apply`).  So a stream is told by the operations behind its
  subscription, up to the first that ends it (`stream_replay`).
-/
import NetconfClient.Dispatch.Desk
import NetconfClient.Proofs.Dispatch.Delivery

namespace NetconfClient.Registry

variable {r q : Registry} {op : Op} {ops before behind : List Op} {n : Nat} {s : Stream}

/-! ## 1. The two sides of a registry -/

/-- The side of the notifications. -/
def onAir (r : Registry) : List Stream × Option Nat × Bool := (r.streams, r.subscriber, r.closed)

/-- The side of the requests. -/
def requests (r : Registry) : List (String × Ticket) × List (Option Outcome) × Bool :=
  (r.pending, r.outcomes, r.closed)

/-- Whether an operation is about a request. -/
def Op.isRequest : Op → Bool
  | .register _ | .cancel _ | .reply _ _ => true
  | _ => false

/-- Whether an operation is about notifications. -/
def Op.isAiring : Op → Bool
  | .notify _ | .subscribe | .unsubscribe _ => true
  | _ => false

theorem onAir_apply_of_isRequest (h : op.isRequest = true) : (r.apply op).onAir = r.onAir := by
  cases op with
  | register id =>
    simp only [apply, register]
    by_cases hclosed : r.closed = true
    · rw [if_pos hclosed]
    · rw [if_neg hclosed]
      cases r.ticket? id <;> rfl
  | cancel id =>
    simp only [apply, cancel]
    cases r.ticket? id <;> rfl
  | reply id raw =>
    cases id with
    | none => rfl
    | some id =>
      simp only [apply, deliverReply]
      cases r.ticket? id <;> rfl
  | fail | notify | subscribe | unsubscribe => cases h

theorem requests_apply_of_isAiring (h : op.isAiring = true) :
    (r.apply op).requests = r.requests := by
  cases op with
  | notify raw =>
    simp only [apply, deliverNotification]
    split
    · rfl
    · split <;> rfl
  | subscribe =>
    simp only [apply, subscribe]
    by_cases hclosed : r.closed = true
    · rw [if_pos hclosed]
    · rw [if_neg hclosed]
      rfl
  | unsubscribe m => rfl
  | register | cancel | reply | fail => cases h

theorem streams_settleAll (r : Registry) (o : Outcome) (ts : List Ticket) :
    (r.settleAll o ts).streams = r.streams := by
  induction ts generalizing r with
  | nil => rfl
  | cons t ts ih => exact ih (r.settle t o)

theorem onAir_apply_congr (h : r.onAir = q.onAir) (hop : op.isRequest = false) :
    (r.apply op).onAir = (q.apply op).onAir := by
  simp only [onAir, Prod.mk.injEq] at h
  obtain ⟨hstreams, hsubscriber, hclosed⟩ := h
  cases op with
  | fail fault =>
    simp only [onAir, apply, deliverError, streams_settleAll, hstreams]
  | notify raw =>
    simp only [apply, deliverNotification, hsubscriber, hstreams]
    split
    · simp only [onAir, hstreams, hsubscriber, hclosed]
    · split <;> simp only [onAir, hclosed]
  | subscribe =>
    simp only [apply, subscribe, hclosed, hstreams]
    by_cases hended : q.closed = true
    · simp only [if_pos hended, onAir, hstreams, hsubscriber, hclosed]
    · simp only [if_neg hended, onAir]
  | unsubscribe m => simp only [onAir, apply, unsubscribe, hstreams, hsubscriber, hclosed]
  | register | cancel | reply => cases hop

theorem outcomes_settleAll_congr (h : r.outcomes = q.outcomes) (o : Outcome) (ts : List Ticket) :
    (r.settleAll o ts).outcomes = (q.settleAll o ts).outcomes := by
  induction ts generalizing r q with
  | nil => exact h
  | cons t ts ih => exact ih (congrArg (·.set t (some o)) h)

theorem requests_apply_congr (h : r.requests = q.requests) (hop : op.isAiring = false) :
    (r.apply op).requests = (q.apply op).requests := by
  simp only [requests, Prod.mk.injEq] at h
  obtain ⟨hpending, houtcomes, hclosed⟩ := h
  cases op with
  | register id =>
    simp only [apply, register, ticket?, hclosed, hpending, houtcomes]
    by_cases hended : q.closed = true
    · simp only [if_pos hended, requests, hpending, houtcomes, hclosed]
    · simp only [if_neg hended]
      cases q.pending.lookup id <;> simp only [requests, hpending, houtcomes, hclosed]
  | cancel id =>
    simp only [apply, cancel, ticket?, hpending]
    cases q.pending.lookup id <;>
      simp only [requests, release, settle, hpending, houtcomes, hclosed]
  | reply id raw =>
    cases id with
    | none => simp only [apply, deliverReply, requests, hpending, houtcomes, hclosed]
    | some id =>
      simp only [apply, deliverReply, ticket?, hpending]
      cases q.pending.lookup id <;>
        simp only [requests, release, settle, hpending, houtcomes, hclosed]
  | fail fault =>
    simp only [requests, apply, deliverError, hpending, outcomes_settleAll_congr houtcomes]
  | notify | subscribe | unsubscribe => cases hop

/-- What some operations do not change and others change in the same way is, behind any
    operations, what it would be without the former. -/
theorem replay_filter {α : Type} {side : Registry → α} {foreign : Op → Bool}
    (hskip : ∀ {r : Registry} {op : Op}, foreign op = true → side (r.apply op) = side r)
    (hcongr : ∀ {r q : Registry} {op : Op}, side r = side q → foreign op = false →
      side (r.apply op) = side (q.apply op))
    (h : side r = side q) (ops : List Op) :
    side (r.replay ops) = side (q.replay (ops.filter (!foreign ·))) := by
  induction ops generalizing r q with
  | nil => exact h
  | cons op ops ih =>
    cases hop : foreign op with
    | true =>
      rw [List.filter_cons_of_neg (by simp [hop])]
      exact ih ((hskip hop).trans h)
    | false =>
      rw [List.filter_cons_of_pos (by simp [hop])]
      exact ih (hcongr h hop)

/-- **The streams are what they would be without any request.** -/
theorem onAir_replay_filter (r : Registry) (ops : List Op) :
    (r.replay ops).onAir = (r.replay (ops.filter (!Op.isRequest ·))).onAir :=
  replay_filter onAir_apply_of_isRequest onAir_apply_congr rfl ops

/-- **The requests are what they would be without any subscriber or notification.** -/
theorem requests_replay_filter (r : Registry) (ops : List Op) :
    (r.replay ops).requests = (r.replay (ops.filter (!Op.isAiring ·))).requests :=
  replay_filter requests_apply_of_isAiring requests_apply_congr rfl ops

/-! ## 2. Operations that end a stream -/

/-- Whether an operation puts an end to whatever is subscribed. -/
def Op.replaces : Op → Bool
  | .subscribe | .fail _ => true
  | _ => false

/-- Whether stream `n` does not grow any more behind an operation. -/
def Op.ends (n : Nat) (op : Op) : Bool := op.replaces || decide (op = .unsubscribe n)

/-- The notifications of operations up to the first that ends stream `n`. -/
def heard (n : Nat) (ops : List Op) : List String :=
  (ops.takeWhile (!Op.ends n ·)).filterMap Op.notification?

theorem heard_cons (n : Nat) (op : Op) (ops : List Op) :
    heard n (op :: ops) = if op.ends n then [] else op.notification?.toList ++ heard n ops := by
  unfold heard
  cases hends : op.ends n with
  | true => simp [hends]
  | false =>
    rw [List.takeWhile_cons_of_pos (by simp [hends]), List.filterMap_cons]
    cases op.notification? <;> rfl

/-- A notification ends nothing. -/
theorem notification?_of_ends (h : op.ends n = true) : op.notification? = none := by
  cases op with
  | notify raw => simp [Op.ends, Op.replaces] at h
  | register | cancel | reply | fail | subscribe | unsubscribe => rfl

/-! ## 3. One operation -/

/-- Whether the subscriber of stream `n` gets the next notification. -/
def hears (r : Registry) (n : Nat) : Bool :=
  r.isLive n && r.streams[n]?.elim false (·.listening)

theorem hears_eq (h : r.streams[n]? = some s) : r.hears n = (r.isLive n && s.listening) := by
  rw [hears, h]
  rfl

/-- A notification goes to the stream that is heard; without one, whoever is subscribed is
    forgotten. -/
theorem deliverNotification_cases (r : Registry) (raw : String) :
    (∃ m, r.hears m = true ∧ r.subscriber = some m ∧
      r.deliverNotification raw =
        (true, { r with
          streams := r.streams.modify m fun s => { s with delivered := s.delivered ++ [raw] } })) ∨
    ((∀ m, r.hears m = false) ∧
      r.deliverNotification raw = (false, { r with subscriber := none })) := by
  unfold deliverNotification hears isLive
  cases hsubscriber : r.subscriber with
  | none =>
    right
    obtain ⟨pending, outcomes, subscriber, streams, closed⟩ := r
    obtain rfl : subscriber = none := hsubscriber
    exact ⟨fun _ => rfl, rfl⟩
  | some m =>
    cases hstream : r.streams[m]? with
    | none =>
      right
      constructor
      · intro k
        by_cases hk : m = k
        · simp [← hk, hstream]
        · simp [hk]
      · simp [hstream]
    | some s =>
      obtain ⟨delivered, listening⟩ := s
      cases listening with
      | true =>
        left
        exact ⟨m, by simp [hstream], rfl, by simp [hstream]⟩
      | false =>
        right
        constructor
        · intro k
          by_cases hk : m = k
          · simp [← hk, hstream]
          · simp [hk]
        · simp [hstream]

theorem subscriber_of_hears (h : r.hears n = true) : r.subscriber = some n := by
  unfold hears isLive at h
  simpa using (Bool.and_eq_true_iff.mp h).1

theorem onAir_eq_iff :
    r.onAir = q.onAir ↔
      r.streams = q.streams ∧ r.subscriber = q.subscriber ∧ r.closed = q.closed := by
  simp only [onAir, Prod.mk.injEq]

theorem streams_apply_of_isRequest (h : op.isRequest = true) :
    (r.apply op).streams = r.streams :=
  (onAir_eq_iff.mp (onAir_apply_of_isRequest h)).1

theorem subscriber_apply_of_isRequest (h : op.isRequest = true) :
    (r.apply op).subscriber = r.subscriber :=
  (onAir_eq_iff.mp (onAir_apply_of_isRequest h)).2.1

/-- Nothing is subscribed once the session has ended. -/
def Silenced (r : Registry) : Prop := r.closed = true → r.subscriber = none

theorem Silenced.apply (h : r.Silenced) (op : Op) : (r.apply op).Silenced := by
  intro hclosed
  rw [closed_apply] at hclosed
  cases op with
  | register | cancel | reply =>
    rw [subscriber_apply_of_isRequest rfl]
    exact h (by simpa [Op.fault?] using hclosed)
  | fail fault => rfl
  | notify raw =>
    have hnone : r.subscriber = none := h (by simpa [Op.fault?] using hclosed)
    simp only [Registry.apply, deliverNotification, hnone]
  | subscribe =>
    have hended : r.closed = true := by simpa [Op.fault?] using hclosed
    simp only [Registry.apply, subscribe, if_pos hended]
    exact h hended
  | unsubscribe m => exact h (by simpa [Op.fault?] using hclosed)

/-- **An operation adds its notification to the stream that is heard**, and leaves every
    other as it is. -/
theorem stream_apply (h : r.streams[n]? = some s) (op : Op) :
    (r.apply op).streams[n]? =
      some ⟨s.delivered ++ (if r.hears n then op.notification?.toList else []),
        s.listening && !decide (op = .unsubscribe n)⟩ := by
  have hsame : op.notification? = none → op ≠ .unsubscribe n →
      some s = some ⟨s.delivered ++ (if r.hears n then op.notification?.toList else []),
        s.listening && !decide (op = .unsubscribe n)⟩ := by
    intro hquiet hother
    simp [hquiet, hother]
  cases op with
  | register | cancel | reply =>
    rw [streams_apply_of_isRequest rfl, h]
    exact hsame rfl (fun hop => by cases hop)
  | fail fault =>
    have hstreams : (r.apply (.fail fault)).streams = r.streams := streams_settleAll r _ _
    rw [hstreams, h]
    exact hsame rfl (fun hop => by cases hop)
  | subscribe =>
    have hstill : (r.apply .subscribe).streams[n]? = some s := by
      simp only [apply, subscribe]
      by_cases hclosed : r.closed = true
      · rw [if_pos hclosed]
        exact h
      · rw [if_neg hclosed]
        exact (List.getElem?_append_left (List.getElem?_eq_some_iff.mp h).1).trans h
    rw [hstill]
    exact hsame rfl (fun hop => by cases hop)
  | unsubscribe m =>
    have hmodified : (r.apply (.unsubscribe m)).streams[n]? =
        some (if m = n then { s with listening := false } else s) := by
      simp only [apply, unsubscribe, List.getElem?_modify, h]
      split <;> rfl
    rw [hmodified]
    by_cases hm : m = n
    · simp [hm, Op.notification?]
    · simp [hm, Op.notification?]
  | notify raw =>
    simp only [apply]
    rcases r.deliverNotification_cases raw with ⟨m, hheard, hsubscriber, hnext⟩ | ⟨hnobody, hnext⟩
    · rw [hnext, List.getElem?_modify, h]
      by_cases hm : m = n
      · subst hm
        simp [hheard, Op.notification?]
      · have hdeaf : r.hears n = false := by
          rw [Bool.eq_false_iff]
          intro hn
          rw [subscriber_of_hears hn] at hsubscriber
          exact hm (Option.some.inj hsubscriber).symm
        simp [hm, hdeaf]
    · rw [hnext]
      simp [h, hnobody n]

/-- Among subscribers that listen, one is replaced by the next or by the end of the session. -/
theorem isLive_apply (hr : r.Silenced) (h : r.streams[n]? = some s) (hs : s.listening = true)
    (op : Op) : (r.apply op).isLive n = (r.isLive n && !op.replaces) := by
  cases op with
  | register | cancel | reply =>
    rw [isLive, subscriber_apply_of_isRequest rfl]
    simp [isLive, Op.replaces]
  | fail fault => simp [isLive, apply, deliverError, Op.replaces]
  | unsubscribe m => simp [isLive, apply, unsubscribe, Op.replaces]
  | subscribe =>
    simp only [isLive, apply, subscribe, Op.replaces]
    by_cases hclosed : r.closed = true
    · rw [if_pos hclosed]
      simp [hr hclosed]
    · rw [if_neg hclosed]
      have hlength : r.streams.length ≠ n := Nat.ne_of_gt (List.getElem?_eq_some_iff.mp h).1
      simp [hlength]
  | notify raw =>
    simp only [isLive, apply, Op.replaces]
    rcases r.deliverNotification_cases raw with ⟨m, -, hsubscriber, hnext⟩ | ⟨hnobody, hnext⟩
    · rw [hnext]
      simp [hsubscriber]
    · -- a subscriber that listens would have been heard
      have hlost := hnobody n
      rw [hears_eq h, hs, Bool.and_true, isLive] at hlost
      rw [hnext, hlost]
      rfl

/-- **A stream that is heard is heard on until an operation ends it**, and never again. -/
theorem hears_apply (hr : r.Silenced) (h : r.streams[n]? = some s) (op : Op) :
    (r.apply op).hears n = (r.hears n && !op.ends n) := by
  rw [hears_eq (stream_apply h op), hears_eq h, Op.ends]
  cases hs : s.listening with
  | false => simp
  | true =>
    rw [isLive_apply hr h hs, Bool.not_or, Bool.and_assoc, Bool.and_true, Bool.true_and]

/-- A notification is taken exactly if some stream is heard. -/
theorem deliverNotification_iff (r : Registry) (raw : String) :
    (r.deliverNotification raw).1 = true ↔ ∃ n, r.hears n = true := by
  rcases r.deliverNotification_cases raw with ⟨m, hheard, -, hnext⟩ | ⟨hnobody, hnext⟩
  · rw [hnext]
    exact ⟨fun _ => ⟨m, hheard⟩, fun _ => rfl⟩
  · simp [hnext, hnobody]

/-! ## 4. Any number of operations -/

theorem Silenced.replay (h : r.Silenced) (ops : List Op) : (r.replay ops).Silenced := by
  induction ops generalizing r with
  | nil => exact h
  | cons op ops ih => exact ih (h.apply op)

/-- **A stream that is heard grows by the notifications up to the first operation that ends it,
    and by nothing else.** -/
theorem stream_replay (h : r.streams[n]? = some s) (hr : r.Silenced) (ops : List Op) :
    (r.replay ops).streams[n]? =
        some ⟨s.delivered ++ (if r.hears n then heard n ops else []),
          s.listening && !decide (.unsubscribe n ∈ ops)⟩ ∧
      (r.replay ops).hears n = (r.hears n && ops.all (!Op.ends n ·)) := by
  induction ops generalizing r s with
  | nil => simpa [replay, heard] using h
  | cons op ops ih =>
    obtain ⟨hstream, hhears⟩ := ih (stream_apply h op) (hr.apply op)
    have hends := hears_apply hr h op
    have hdelivered : s.delivered ++ (if r.hears n then op.notification?.toList else []) ++
        (if (r.apply op).hears n then heard n ops else []) =
        s.delivered ++ (if r.hears n then heard n (op :: ops) else []) := by
      rw [hends, heard_cons]
      cases r.hears n with
      | false => simp
      | true =>
        cases hop : op.ends n with
        | true => simp [notification?_of_ends hop]
        | false => simp
    have hlistening : (s.listening && !decide (op = .unsubscribe n) &&
        !decide (.unsubscribe n ∈ ops)) =
          (s.listening && !decide (.unsubscribe n ∈ op :: ops)) := by
      simp only [List.mem_cons, Bool.decide_or, Bool.not_or, Bool.and_assoc, eq_comm]
    constructor
    · rw [← hdelivered, ← hlistening]
      exact hstream
    · refine hhears.trans ?_
      rw [hends, List.all_cons, Bool.and_assoc]

theorem closed_replay (r : Registry) (ops : List Op) :
    (r.replay ops).closed = true ↔ r.closed = true ∨ ∃ fault, .fail fault ∈ ops := by
  induction ops generalizing r with
  | nil => simp [replay]
  | cons op ops ih =>
    refine (ih (r.apply op)).trans ?_
    rw [closed_apply]
    cases op <;> simp [Op.fault?]

theorem replay_append (r : Registry) (before behind : List Op) :
    r.replay (before ++ behind) = (r.replay before).replay behind :=
  List.foldl_append

/-! ## 5. Streams and subscriptions -/

/-- An operation opens a stream exactly if it subscribes while the session lasts. -/
theorem length_streams_apply (r : Registry) (op : Op) :
    (r.apply op).streams.length =
      r.streams.length + if op = .subscribe ∧ r.closed = false then 1 else 0 := by
  cases op with
  | register | cancel | reply =>
    rw [streams_apply_of_isRequest rfl]
    simp
  | fail fault =>
    have hstreams : (r.apply (.fail fault)).streams = r.streams := streams_settleAll r _ _
    simp [hstreams]
  | notify raw =>
    simp only [apply]
    rcases r.deliverNotification_cases raw with ⟨m, -, -, hnext⟩ | ⟨-, hnext⟩ <;> simp [hnext]
  | subscribe =>
    simp only [apply, subscribe]
    cases r.closed <;> simp
  | unsubscribe m => simp [apply, unsubscribe]

/-- Operations behind which the session is still open. -/
def Lasting (ops : List Op) : Prop := ∀ op ∈ ops, op.fault? = none

instance (ops : List Op) : Decidable (Lasting ops) := inferInstanceAs (Decidable (∀ _ ∈ _, _))

theorem lasting_cons : Lasting (op :: ops) ↔ op.fault? = none ∧ Lasting ops :=
  List.forall_mem_cons

/-- **Streams are numbered by the subscriptions.** -/
theorem length_streams_replay (hopen : r.closed = false) (h : Lasting before) :
    (r.replay before).streams.length = r.streams.length + before.count .subscribe := by
  induction before generalizing r with
  | nil => rfl
  | cons op before ih =>
    obtain ⟨hop, hlater⟩ := lasting_cons.mp h
    have hstill : (r.apply op).closed = false := by
      rw [closed_apply, hopen, hop]
      rfl
    refine (ih hstill hlater).trans ?_
    rw [length_streams_apply, hopen, List.count_cons]
    by_cases hsubscribe : op = .subscribe
    · simp [hsubscribe]
      omega
    · simp [hsubscribe]

/-- No stream is opened once the session has ended. -/
theorem length_streams_replay_of_closed (h : r.closed = true) (ops : List Op) :
    (r.replay ops).streams.length = r.streams.length := by
  induction ops generalizing r with
  | nil => rfl
  | cons op ops ih =>
    have hstill : (r.apply op).closed = true := by rw [closed_apply, h, Bool.true_or]
    refine (ih hstill).trans ?_
    rw [length_streams_apply, h]
    simp

/-- **Every stream belongs to a subscription.** -/
theorem exists_subscription (hopen : r.closed = false) (hnew : r.streams.length ≤ n)
    (h : n < (r.replay ops).streams.length) :
    ∃ before behind, ops = before ++ .subscribe :: behind ∧ Lasting before ∧
      r.streams.length + before.count .subscribe = n := by
  induction ops generalizing r with
  | nil => exact absurd h (Nat.not_lt.mpr hnew)
  | cons op ops ih =>
    have hlength := length_streams_apply r op
    rw [hopen] at hlength
    by_cases hfirst : op = .subscribe ∧ n = r.streams.length
    · obtain ⟨rfl, rfl⟩ := hfirst
      exact ⟨[], ops, rfl, List.forall_mem_nil _, rfl⟩
    · cases hclosed : (r.apply op).closed with
      | true =>
        -- the session has ended with the first operation, which is no subscription
        have hstays : (r.replay (op :: ops)).streams.length = (r.apply op).streams.length :=
          length_streams_replay_of_closed hclosed ops
        have hop : op ≠ .subscribe := by
          rintro rfl
          rw [closed_apply, hopen] at hclosed
          cases hclosed
        rw [hstays, hlength, if_neg (fun hsubscribe => hop hsubscribe.1)] at h
        omega
      | false =>
        have hop : op.fault? = none := by
          rw [closed_apply, hopen, Bool.false_or] at hclosed
          simpa using hclosed
        have hnext : (r.apply op).streams.length ≤ n := by
          rw [hlength]
          split
          · next hsubscribe =>
            have hne : n ≠ r.streams.length := fun hn => hfirst ⟨hsubscribe.1, hn⟩
            omega
          · exact hnew
        obtain ⟨before, behind, rfl, hlasting, hn⟩ := ih hclosed hnext h
        refine ⟨op :: before, behind, rfl, lasting_cons.mpr ⟨hop, hlasting⟩, ?_⟩
        rw [← hn, hlength, List.count_cons]
        by_cases hsubscribe : op = .subscribe
        · simp [hsubscribe]
          omega
        · simp [hsubscribe]

/-! ## 6. Notifications -/

/-- What a subscription gives, and what has become of it behind further operations. -/
theorem stream_of_subscription (hlasting : Lasting before) (behind : List Op) :
    let n := before.count .subscribe
    let r := empty.replay (before ++ .subscribe :: behind)
    (empty.replay before).subscribe = .ok (n, (empty.replay before).apply .subscribe) ∧
      r.streams[n]? = some ⟨heard n behind, decide (.unsubscribe n ∉ behind)⟩ ∧
      r.hears n = behind.all (!Op.ends n ·) := by
  intro n r
  have hopen : (empty.replay before).closed = false := by
    rw [Bool.eq_false_iff, Ne, closed_replay]
    rintro (hclosed | ⟨fault, hfault⟩)
    · cases hclosed
    · exact absurd (hlasting _ hfault) (Option.some_ne_none fault)
  have hlength : (empty.replay before).streams.length = n := by
    rw [length_streams_replay rfl hlasting]
    exact Nat.zero_add _
  have hsubscribe : (empty.replay before).subscribe =
      .ok (n, (empty.replay before).apply .subscribe) := by
    rw [apply, subscribe, hopen, ← hlength]
    rfl
  have hstream : ((empty.replay before).apply .subscribe).streams[n]? = some ⟨[], true⟩ := by
    rw [apply, subscribe, hopen, ← hlength]
    simp
  have hheard : ((empty.replay before).apply .subscribe).hears n = true := by
    rw [hears_eq hstream, isLive, apply, subscribe, hopen, ← hlength]
    simp
  have hsilenced : ((empty.replay before).apply .subscribe).Silenced :=
    Silenced.apply (Silenced.replay (fun _ => rfl) before) .subscribe
  have hr : r = ((empty.replay before).apply .subscribe).replay behind := replay_append _ _ _
  obtain ⟨hfinal, hhears⟩ := stream_replay hstream hsilenced behind
  rw [hheard] at hfinal hhears
  refine ⟨hsubscribe, ?_, ?_⟩
  · rw [hr, hfinal]
    simp
  · rw [hr, hhears, Bool.true_and]

/-- A receiver that is still there takes what it has not taken yet, and is told whether the
    stream is over. -/
theorem notifications_of_stream {d : Desk} {taken : Nat} (hstream : r.streams[n]? = some s)
    (hd : d.stream = some (n, taken)) :
    (d.notifications r).1 = some (s.delivered.drop taken, !r.isLive n) := by
  simp only [Desk.notifications, hd, hstream]

/-- **Notifications are neither lost nor repeated, reordered or mixed with replies.**  The
    stream of each subscriber is what was notified behind its subscription, up to the first
    operation that ends it, and its receiver is told of the end; a notification is taken exactly
    if there is a subscription behind which nothing has ended it; subscribing fails exactly if
    the session has ended; and neither side of the registry depends on the other. -/
theorem streams_carry_notifications (ops : List Op) :
    let r := empty.replay ops
    (∀ before behind, ops = before ++ .subscribe :: behind → Lasting before →
      let n := before.count .subscribe
      (empty.replay before).subscribe = .ok (n, (empty.replay before).apply .subscribe) ∧
      r.streams[n]? = some ⟨heard n behind, decide (.unsubscribe n ∉ behind)⟩ ∧
      (.unsubscribe n ∉ behind → ∀ (d : Desk) (taken : Nat), d.stream = some (n, taken) →
        (d.notifications r).1 = some ((heard n behind).drop taken, behind.any Op.replaces))) ∧
    (∀ n < r.streams.length, ∃ before behind, ops = before ++ .subscribe :: behind ∧
      Lasting before ∧ before.count .subscribe = n) ∧
    (∀ raw, (r.deliverNotification raw).1 = true ↔
      ∃ before behind, ops = before ++ .subscribe :: behind ∧ Lasting before ∧
        ∀ op ∈ behind, op.ends (before.count .subscribe) = false) ∧
    ((∃ fault, r.subscribe = .error fault) ↔ ∃ fault, .fail fault ∈ ops) ∧
    r.onAir = (empty.replay (ops.filter (!Op.isRequest ·))).onAir ∧
    r.requests = (empty.replay (ops.filter (!Op.isAiring ·))).requests := by
  intro r
  have hstreams : ∀ n < r.streams.length, ∃ before behind, ops = before ++ .subscribe :: behind ∧
      Lasting before ∧ before.count .subscribe = n := by
    intro n hn
    obtain ⟨before, behind, hops, hlasting, hcount⟩ :=
      exists_subscription (r := empty) rfl (Nat.zero_le n) hn
    exact ⟨before, behind, hops, hlasting, (Nat.zero_add _).symm.trans hcount⟩
  refine ⟨?_, hstreams, ?_, ?_, onAir_replay_filter empty ops, requests_replay_filter empty ops⟩
  · rintro before behind rfl hlasting
    obtain ⟨hsubscribe, hstream, hhears⟩ := stream_of_subscription hlasting behind
    refine ⟨hsubscribe, hstream, ?_⟩
    intro hthere d taken hd
    rw [notifications_of_stream hstream hd]
    -- with its receiver still there, a stream is heard as long as it is the live one
    have hlive := hears_eq hstream
    rw [hhears, decide_eq_true hthere, Bool.and_true] at hlive
    have hends : ∀ op ∈ behind, Op.ends (before.count .subscribe) op = op.replaces := by
      intro op hop
      have hother : op ≠ .unsubscribe (before.count .subscribe) := by
        rintro rfl
        exact hthere hop
      simp [Op.ends, hother]
    have hany : behind.any (Op.ends (before.count .subscribe)) = behind.any Op.replaces := by
      rw [Bool.eq_iff_iff, List.any_eq_true, List.any_eq_true]
      exact exists_congr fun op => and_congr_right fun hop => by rw [hends op hop]
    rw [← hlive, ← List.not_any_eq_all_not, Bool.not_not, hany]
  · intro raw
    rw [deliverNotification_iff]
    constructor
    · rintro ⟨n, hn⟩
      have hlength : n < r.streams.length := by
        by_contra hout
        rw [hears, List.getElem?_eq_none (Nat.le_of_not_lt hout)] at hn
        simp at hn
      obtain ⟨before, behind, rfl, hlasting, rfl⟩ := hstreams n hlength
      refine ⟨before, behind, rfl, hlasting, ?_⟩
      rw [(stream_of_subscription hlasting behind).2.2] at hn
      simpa using hn
    · rintro ⟨before, behind, rfl, hlasting, hnone⟩
      refine ⟨before.count .subscribe, ?_⟩
      rw [(stream_of_subscription hlasting behind).2.2]
      simpa using hnone
  · have hended : r.closed = true ↔ ∃ fault, .fail fault ∈ ops := by
      rw [closed_replay]
      simp [empty]
    rw [← hended]
    unfold subscribe
    cases r.closed <;> simp

/-- Three subscribers: the second takes the place of the first and goes away, the third is
    there when the session ends. -/
theorem streams_carry_notifications_thrice :
    let ops : List Op := [.notify "lost", .register "a", .subscribe, .notify "one",
      .reply (some "a") "<rpc-reply/>", .notify "two", .subscribe, .notify "three", .unsubscribe 1,
      .notify "unheard", .subscribe, .notify "four", .fail .unexpectedEnd, .notify "late"]
    let r := empty.replay ops
    r.streams[0]? = some ⟨["one", "two"], true⟩ ∧ r.streams[1]? = some ⟨["three"], false⟩ ∧
      (Desk.notifications ⟨[], [], some (2, 0)⟩ r).1 = some (["four"], true) ∧
      ((empty.replay (ops.take 12)).deliverNotification "five").1 = true ∧
      ∃ fault, r.subscribe = .error fault := by
  intro ops r
  obtain ⟨hstreams, -, -, hsubscribe, -, -⟩ := streams_carry_notifications ops
  obtain ⟨-, -, hdelivered, -, -, -⟩ := streams_carry_notifications (ops.take 12)
  refine ⟨?_, ?_, ?_, ?_, ?_⟩
  · exact (hstreams (ops.take 2) _ rfl (by decide)).2.1
  · exact (hstreams (ops.take 6) _ rfl (by decide)).2.1
  · exact (hstreams (ops.take 10) _ rfl (by decide)).2.2 (by decide) _ 0 rfl
  · exact (hdelivered "five").mpr ⟨ops.take 10, [.notify "four"], rfl, by decide, by decide⟩
  · exact hsubscribe.mpr ⟨.unexpectedEnd, by decide⟩

end NetconfClient.Registry
