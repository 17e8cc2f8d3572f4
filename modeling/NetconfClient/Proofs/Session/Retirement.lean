/-
  NetconfClient/Proofs/Session/Retirement.lean
  ============================================
  **The writer retires behind the session.**

  Whatever can make the writer leave off, apart from the end of the session
  itself, is done by a call that has begun to close the session (`Retiring`).
  So the queue of an open session takes messages, or has no room just now.
-/
import NetconfClient.Proofs.Session.Settlement
import NetconfClient.Proofs.Session.Taking

namespace NetconfClient.Session

open Text

/-! ## 1. Dismissing the writer -/

/-- Whether the writer is on its way to leave off, for good. -/
def Writer.leaves : Writer → Bool
  | shutting | ended | tearing (.fail _) => true
  | _ => false

/-- The session has begun to close, or is closed. -/
def System.IsOver (s : System) : Prop := Phase.closing.rank ≤ s.phase.rank

namespace System

variable {s t : System} {move : Move}

theorem IsOver.not_opened (h : s.IsOver) : s.phase ≠ .opened := by
  intro hopen
  rw [IsOver, hopen] at h
  exact absurd h (by decide)

theorem IsOver.perform (h : s.IsOver) (hstep : s.perform move = some t) : t.IsOver :=
  Nat.le_trans h (rank_le_perform hstep)

theorem IsOver.run {history : History} (h : s.IsOver) (hrun : Run s history t) : t.IsOver :=
  Nat.le_trans h hrun.rank_le

theorem isOver_of_closed (h : s.phase = .closed) : s.IsOver := by
  rw [IsOver, h]
  decide

/-- A call comes to dismissing the writer when it has begun to close the session. -/
theorem dismisses_stepStage {stage later : Stage} (h : s.stepStage stage = some (t, .goOn later))
    (hlater : later.dismisses = true) : stage.dismisses = true ∨ t.IsOver := by
  have hother : ¬ (Next.goOn later).IsAftermath := by
    cases later <;> first | exact id | cases hlater
  have hclosing : (s.advance .closing).IsOver := by
    change Phase.closing.rank ≤ (s.phase.advance .closing).rank
    rw [Phase.rank_advance]
    exact Nat.le_max_right _ _
  cases stage
  all_goals
    simp only [stepStage] at h
    repeat' split at h
  all_goals first
    | exact absurd (Prod.mk.inj (Option.some.inj h)).2 (refused_ne hother _ _)
    | exact absurd (Prod.mk.inj (Option.some.inj h)).2 (queued_ne hother _ _ _)
    | exact .inl rfl
    | cases h; cases hlater; done
    | cases h; exact .inr hclosing
    | cases h

theorem closed_stepStage {stage : Stage} {next : Next} (h : s.stepStage stage = some (t, next)) :
    t.queue.closed = s.queue.closed := by
  cases hstage : stage.teardown? with
  | some teardown =>
    have hqueue := congrArg Queue.closed (queue_tear s teardown)
    rcases (stepStage_of_teardown hstage h).1 with rfl | rfl
    · exact hqueue
    · exact hqueue
  | none =>
    cases stage
    case refuseTeardown | closeTeardown | dropTeardown => cases hstage
    all_goals
      simp only [stepStage] at h
      repeat' split at h
    all_goals cases h
    all_goals rfl

end System

/-! ## 2. The writer of an open session -/

/-- A connecting call that has failed has left the session closed. -/
theorem Connection.closed_of_failed {history : History} {s : System} {fault : Fault}
    (h : Connection history s) (hfailed : s.results.lookup 0 = some (.failed fault)) :
    s.phase = .closed := by
  rcases h.of_result hfailed with ⟨hconnected, -⟩ | ⟨_, -, hphase, -⟩
  · cases hconnected
  · exact hphase

/-- Whatever makes the writer leave off comes with the end of the session. -/
structure Retiring (s : System) : Prop where
  stages : ∀ n stage, s.calls.lookup n = some stage → stage.dismisses = true → s.IsOver
  ordered : .shutdown ∈ s.queue.items → s.IsOver
  cut : s.writerStops = true ∨ s.queue.detached = true → s.IsOver
  leaves : s.writer.leaves = true → s.IsOver
  closed : s.queue.closed = true → s.IsOver

namespace Retiring

variable {history : History} {s t : System} {move : Move}

/-- The writer closes the queue when it ends, and takes out of it what stands in front. -/
theorem queue_of_writerStep {writer : Writer} (h : System.WriterStep s t writer) :
    (t.queue.closed = s.queue.closed ∨ t.queue.closed = true ∧ t.writer = .ended) ∧
      t.queue.items ⊆ s.queue.items := by
  cases h with
  | stop _ _ ht => subst ht; exact ⟨.inr ⟨rfl, rfl⟩, List.nil_subset _⟩
  | shut _ ht => subst ht; exact ⟨.inr ⟨rfl, rfl⟩, List.nil_subset _⟩
  | finish _ ht => subst ht; exact ⟨.inr ⟨rfl, rfl⟩, List.nil_subset _⟩
  | take octets items hitems ht =>
    subst ht
    rw [hitems]
    exact ⟨.inl rfl, List.subset_cons_self _ _⟩
  | obey items hitems ht =>
    subst ht
    rw [hitems]
    exact ⟨.inl rfl, List.subset_cons_self _ _⟩
  | @close teardown rest hrest ht =>
    subst ht
    have hqueue := System.queue_tear s teardown
    refine ⟨.inl (congrArg Queue.closed hqueue), ?_⟩
    intro item hitem
    exact hqueue ▸ hitem
  | leave _ _ ht => subst ht; exact ⟨.inl rfl, List.Subset.refl _⟩
  | write _ _ _ ht => subst ht; exact ⟨.inl rfl, List.Subset.refl _⟩
  | flush ht => subst ht; exact ⟨.inl rfl, List.Subset.refl _⟩
  | fail _ _ ht => subst ht; exact ⟨.inl rfl, List.Subset.refl _⟩

/-- A step with which the writer is on its way to leave off. -/
theorem leaves_stepWriter (h : Retiring s)
    (hstep : s.perform (.step .writer) = some t) (hleaves : t.writer.leaves = true) : t.IsOver := by
  have hlater : s.IsOver → t.IsOver := fun hover => hover.perform hstep
  have hcases := System.writerStep hstep
  have hbefore := h.leaves
  have hfailing : ∀ fault, s.writer = .tearing (.fail fault) → s.IsOver := by
    intro fault hwriter
    exact hbefore (by rw [hwriter]; rfl)
  generalize s.writer = writer at hcases hbefore hfailing
  cases hcases with
  | stop hstops => exact hlater (h.cut (.inl hstops))
  | obey items hitems => exact hlater (h.ordered (by rw [hitems]; exact List.mem_cons_self))
  | leave _ hdetached => exact hlater (h.cut (.inr hdetached))
  | shut => exact hlater (hbefore rfl)
  | @close teardown rest hrest ht =>
    cases teardown with
    | close fault =>
      subst ht
      exact System.isOver_of_closed (Phase.advance_closed s.phase)
    | fail fault => exact hlater (hfailing fault rfl)
  | @finish teardown hrest ht =>
    cases teardown with
    | close fault =>
      subst ht
      exact System.isOver_of_closed (Phase.advance_closed s.phase)
    | fail fault => exact hlater (hfailing fault rfl)
  | take _ _ _ ht => subst ht; cases hleaves
  | write _ _ _ ht => subst ht; cases hleaves
  | flush ht => subst ht; cases hleaves
  | fail _ _ ht => subst ht; cases hleaves

theorem stepWriter (h : Retiring s) (hstep : s.perform (.step .writer) = some t) :
    Retiring t := by
  have hlater : s.IsOver → t.IsOver := fun hover => hover.perform hstep
  have hframe := System.stepWriter_frame hstep
  have hcases := System.writerStep hstep
  obtain ⟨hclosed, hitems⟩ := queue_of_writerStep hcases
  refine ⟨?_, ?_, ?_, h.leaves_stepWriter hstep, ?_⟩
  · intro n stage hstage hdismisses
    rw [hframe] at hstage
    exact hlater (h.stages n stage hstage hdismisses)
  · exact fun hin => hlater (h.ordered (hitems hin))
  · intro hcut
    rw [hcases.frame.2.1, show t.writerStops = s.writerStops by rw [hframe]] at hcut
    exact hlater (h.cut hcut)
  · intro hclosed'
    rcases hclosed with hsame | ⟨-, hended⟩
    · exact hlater (h.closed (hsame ▸ hclosed'))
    · exact h.leaves_stepWriter hstep (by rw [hended]; rfl)

/-- A step of a call. -/
theorem call {number : Nat} (h : Retiring s) (hconnection : Connection history s)
    (hnext : Connection (history ++ [(s, .step (.call number))]) t)
    (hstep : s.perform (.step (.call number)) = some t) : Retiring t := by
  have hlater : s.IsOver → t.IsOver := fun hover => hover.perform hstep
  obtain ⟨stage, u, next, hstage, hcall, hstops, hqueue, hself, hothers, hresult, hphase⟩ :=
    System.stage?_stepCall hstep
  have hwriter : t.writer = s.writer := by rw [System.stepCall_frame hstep]
  refine ⟨?_, ?_, ?_, ?_, ?_⟩
  · intro n later hlookup hdismisses
    by_cases hn : n = number
    · subst hn
      rw [hself] at hlookup
      cases next with
      | finish result => cases hlookup
      | goOn later' =>
        cases hlookup
        rcases System.dismisses_stepStage hcall hdismisses with hbefore | hover
        · exact hlater (h.stages n stage hstage hbefore)
        · rw [System.IsOver, hphase]
          exact hover
    · exact hlater (h.stages n later (hothers n hn ▸ hlookup) hdismisses)
  · intro hin
    rw [System.items_stepCall hstep, System.entered?, hstage, Option.bind_some, List.mem_append,
      Option.mem_toList] at hin
    rcases hin with hin | hentering
    · exact hlater (h.ordered hin)
    · obtain ⟨deadline, rfl⟩ := System.flush_of_entering hentering
      exact hlater (h.stages number _ hstage rfl)
  · intro hcut
    rcases System.cut_stepStage hcall with ⟨hstops', hdetached⟩ | ⟨-, hdismisses, -⟩ |
      ⟨hconnects, fault, rfl⟩
    · rw [hstops, hqueue, hstops', hdetached] at hcut
      exact hlater (h.cut hcut)
    · exact hlater (h.stages number stage hstage hdismisses)
    · -- a call that could not connect leaves the session closed
      rcases hconnection.of_lookup hstage with ⟨rfl, -⟩ | ⟨-, hnot, -⟩
      · exact System.isOver_of_closed (hnext.closed_of_failed (hresult _ rfl))
      · rw [hconnects] at hnot
        cases hnot
  · exact fun hleaves => hlater (h.leaves (hwriter ▸ hleaves))
  · intro hclosed
    rw [hqueue, System.closed_stepStage hcall] at hclosed
    exact hlater (h.closed hclosed)

/-- **Every move keeps that the writer retires behind the session.** -/
theorem perform (h : Retiring s) (hs : s.Numbered) (hconnection : Connection history s)
    (hnext : Connection (history ++ [(s, move)]) t) (hstep : s.perform move = some t) :
    Retiring t := by
  have hlater : s.IsOver → t.IsOver := fun hover => hover.perform hstep
  -- what is left says nothing to the writer
  have hother : (∀ n stage, t.calls.lookup n = some stage → stage.dismisses = true →
      s.calls.lookup n = some stage) → t.queue = s.queue → t.writer = s.writer →
      t.writerStops = s.writerStops → Retiring t := by
    intro hcalls hqueue hwriter hstops
    refine ⟨?_, ?_, ?_, ?_, ?_⟩
    · intro n stage hstage hdismisses
      exact hlater (h.stages n stage (hcalls n stage hstage hdismisses) hdismisses)
    · exact fun hin => hlater (h.ordered (hqueue ▸ hin))
    · exact fun hcut => hlater (h.cut (hstops ▸ hqueue ▸ hcut))
    · exact fun hleaves => hlater (h.leaves (hwriter ▸ hleaves))
    · exact fun hclosed => hlater (h.closed (hqueue ▸ hclosed))
  cases move with
  | step task =>
    cases task with
    | writer => exact h.stepWriter hstep
    | call number => exact h.call hconnection hnext hstep
    | receiver =>
      have hframe := System.stepReceiver_frame hstep
      refine hother (fun n stage hstage _ => ?_) (by rw [hframe]) (by rw [hframe]) (by rw [hframe])
      rw [hframe] at hstage
      exact hstage
  | begin entry =>
    rw [System.perform] at hstep
    split at hstep
    · next hentry =>
      cases hstep
      refine hother (fun n stage hstage hdismisses => ?_) rfl rfl rfl
      by_cases hn : n = s.begun
      · subst hn
        rw [hs.lookup_begin entry] at hstage
        cases hstage
        cases entry <;> first | cases hdismisses; done | cases hentry
      · exact System.lookup_begin_of_ne entry hn ▸ hstage
    · cases hstep
  | _ =>
    cases hstep
    exact hother (fun _ _ hstage _ => hstage) rfl rfl rfl

theorem run {config : Config} {own : CapabilitySet} {link : Link} {now : Duration}
    (h : Run (.start config own link now) history s) (horderly : history.Orderly) :
    Retiring s := by
  induction h with
  | nil =>
    refine ⟨?_, ?_, ?_, ?_, ?_⟩
    · intro n stage hstage
      cases hstage
    · intro hin
      cases hin
    · intro hcut
      rcases hcut with hcut | hcut <;> cases hcut
    · intro hleaves
      cases hleaves
    · intro hclosed
      cases hclosed
  | snoc before hstep ih =>
    exact (ih horderly.front).perform before.numbered_of_start (.run before horderly.front)
      (.run (before.snoc hstep) horderly) hstep

/-- A queue that is closed stays closed. -/
theorem closed_perform (hstep : s.perform move = some t) (hs : s.queue.closed = true) :
    t.queue.closed = true := by
  cases move with
  | step task =>
    cases task with
    | writer =>
      rcases (queue_of_writerStep (System.writerStep hstep)).1 with hsame | ⟨hclosed, -⟩
      · rw [hsame, hs]
      · exact hclosed
    | receiver =>
      rw [System.stepReceiver_frame hstep]
      exact hs
    | call number =>
      obtain ⟨stage, u, next, -, hcall, -, hqueue, -⟩ := System.stage?_stepCall hstep
      rw [hqueue, System.closed_stepStage hcall]
      exact hs
  | _ =>
    rw [System.perform_frame hstep nofun]
    exact hs

end Retiring

/-! ## 3. Sessions that have been connected -/

theorem System.opened_of_finish {s t : System} {stage : Stage} (hconnects : stage.connects = true)
    (h : s.stepStage stage = some (t, .finish .connected)) :
    Phase.opened.rank ≤ t.phase.rank := by
  cases stage
  case establish n =>
    simp only [stepStage] at h
    split at h
    · cases h
      change Phase.opened.rank ≤ (s.phase.advance .opened).rank
      rw [Phase.rank_advance]
      exact Nat.le_max_right _ _
    · cases h
  case greet | awaitGreeting | refuse | refuseTeardown =>
    simp only [stepStage] at h
    repeat' split at h
    all_goals cases h
  all_goals cases hconnects

/-- **A session that has been connected is open or over.** -/
theorem opened_or_over {config : Config} {own : CapabilitySet} {link : Link} {now : Duration}
    {history : History} {s : System} (h : Run (.start config own link now) history s)
    (horderly : history.Orderly) (hconnected : s.results.lookup 0 = some .connected) :
    s.phase = .opened ∨ s.IsOver := by
  have hrank : Phase.opened.rank ≤ s.phase.rank := by
    induction h with
    | nil => cases hconnected
    | @snoc earlier u t move before hstep ih =>
      by_cases hbefore : u.results.lookup 0 = some .connected
      · exact Nat.le_trans (ih horderly.front hbefore) (System.rank_le_perform hstep)
      by_cases hmove : move = .step (.call 0)
      · subst hmove
        obtain ⟨stage, v, next, hstage, hcall, rfl⟩ := System.stepCall_cases hstep
        have hresults : v.results = u.results := by rw [System.stepStage_frame hcall]
        cases next with
        | goOn later => exact absurd (hresults ▸ hconnected) hbefore
        | finish result =>
          obtain rfl : result = .connected := by simpa using hconnected
          have hconnects : stage.connects = true := by
            rcases (Connection.run before horderly.front).of_lookup hstage with
              ⟨-, -, -, hasks⟩ | ⟨hnot, -⟩
            · cases stage <;> first | rfl | exact absurd hasks id
            · exact absurd rfl hnot
          have hopened : Phase.opened.rank ≤ v.phase.rank := System.opened_of_finish hconnects hcall
          exact hopened
      · rw [System.results_perform hstep hmove] at hconnected
        exact absurd hconnected hbefore
  revert hrank
  rw [System.IsOver]
  cases s.phase <;> simp [Phase.rank]

end NetconfClient.Session
