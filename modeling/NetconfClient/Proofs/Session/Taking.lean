/-
  NetconfClient/Proofs/Session/Taking.lean
  ========================================
  **One call alone takes a session with it.**

  In a session that is used in order there is one call at most that closes it or
  lets it go, and it is the last to have begun.  Only that call queues the order
  to shut down, tells the writer to stop and leaves the queue without a sender,
  each at a stage of its own (`Taking`).
-/
import NetconfClient.Proofs.Session.Connecting
import NetconfClient.Proofs.Session.Writing

namespace NetconfClient.Session

open Text

/-! ## 1. The stages of closing -/

/-- How far a call has come with closing: it has not told the writer to shut down yet, it
    waits for the writer, or it is done with it. -/
def Stage.closing : Stage → Nat
  | joinWriter _ | stopWriter => 1
  | joinReceiver _ | stopReceiver | closeTeardown _ | drop _ | dropStop _ | dropTeardown _ _ => 2
  | _ => 0

/-- Whether a call is about to dismiss the writer: to order it to shut down, or to stop it. -/
def Stage.dismisses : Stage → Bool
  | flush _ | joinWriter _ | stopWriter | dropStop _ => true
  | _ => false

namespace System

variable {s t : System} {move : Move}

theorem takes_refused {purpose : Purpose} {fault : Fault} {later : Stage}
    (h : refused purpose fault = .goOn later) : later.takes = purpose.isFarewell := by
  cases purpose with
  | farewell id => cases h; rfl
  | _ => cases h

theorem takes_queued {ticket : Option Ticket} {purpose : Purpose} {later : Stage}
    (h : s.queued ticket purpose = .goOn later) : later.takes = purpose.isFarewell := by
  cases ticket with
  | none => cases purpose <;> cases h
  | some ticket =>
    cases purpose with
    | operation id => cases h; rfl
    | farewell id => cases h; rfl
    | _ => cases h

/-- A call that takes the session with it does so to its end, and no other comes to it. -/
theorem takes_stepStage {stage later : Stage} (h : s.stepStage stage = some (t, .goOn later)) :
    later.takes = stage.takes := by
  cases stage
  all_goals
    simp only [stepStage] at h
    repeat' split at h
  all_goals first
    | cases h; rfl
    | cases h
    | exact takes_refused (Prod.mk.inj (Option.some.inj h)).2
    | exact takes_queued (Prod.mk.inj (Option.some.inj h)).2

/-- Closing goes one way, and the order to shut down is a stage of it. -/
theorem closing_stepStage {stage later : Stage} (h : s.stepStage stage = some (t, .goOn later)) :
    stage.closing ≤ later.closing ∧ (s.entering stage = some .shutdown → 1 ≤ later.closing) := by
  cases stage
  case enqueue ticket purpose message =>
    refine ⟨Nat.zero_le _, fun hentering => ?_⟩
    rw [entering] at hentering
    split at hentering <;> cases hentering
  case withdraw purpose fault =>
    refine ⟨Nat.zero_le _, fun hentering => ?_⟩
    cases hentering
  all_goals
    simp only [stepStage] at h
    repeat' split at h
  all_goals first
    | cases h; simp [Stage.closing, entering]
    | cases h
    | exact ⟨Nat.zero_le _, fun hentering => by cases hentering⟩

theorem cut_of_tear {teardown : Teardown} {after : Option Teardown}
    (h : s.tear teardown = (t, after)) :
    t.writerStops = s.writerStops ∧ t.queue.detached = s.queue.detached := by
  cases teardown with
  | close fault => cases h; exact ⟨rfl, rfl⟩
  | fail fault => cases h; exact ⟨rfl, rfl⟩

theorem flush_of_entering {stage : Stage} (h : s.entering stage = some .shutdown) :
    ∃ deadline, stage = .flush deadline := by
  cases stage
  case flush deadline => exact ⟨deadline, rfl⟩
  all_goals
    simp only [entering] at h
    repeat' split at h
  all_goals cases h

/-- What tells the writer to stop, or leaves it without a sender, is the call that takes the
    session with it, or one that could not connect. -/
theorem cut_stepStage {stage : Stage} {next : Next} (h : s.stepStage stage = some (t, next)) :
    (t.writerStops = s.writerStops ∧ t.queue.detached = s.queue.detached) ∨
    (stage.takes = true ∧ stage.dismisses = true ∧
      ∃ later, next = .goOn later ∧ later.closing = 2) ∨
    (stage.connects = true ∧ ∃ fault, next = .finish (.failed fault)) := by
  cases stage
  case refuseTeardown teardown fault =>
    simp only [stepStage] at h
    split at h
    · next u rest heq =>
      cases h
      exact .inl (cut_of_tear heq)
    · next u heq =>
      cases h
      exact .inr (.inr ⟨rfl, _, rfl⟩)
  case closeTeardown teardown =>
    simp only [stepStage] at h
    split at h
    · next u rest heq =>
      cases h
      exact .inl (cut_of_tear heq)
    · next u heq =>
      cases h
      exact .inl (cut_of_tear heq)
  case dropTeardown teardown result =>
    simp only [stepStage] at h
    split at h
    · next u rest heq =>
      cases h
      exact .inl (cut_of_tear heq)
    · next u heq =>
      cases h
      exact .inl (cut_of_tear heq)
  all_goals
    simp only [stepStage] at h
    repeat' split at h
  all_goals cases h
  all_goals first
    | exact .inl ⟨rfl, rfl⟩
    | exact .inr (.inl ⟨rfl, rfl, _, rfl, rfl⟩)
    | exact .inr (.inr ⟨rfl, _, rfl⟩)

/-- The stage that a call goes on to. -/
def Next.stage? : Next → Option Stage
  | goOn stage => some stage
  | finish _ => none

/-- What a step of a call does to the calls, the queue and the writer. -/
theorem stage?_stepCall {number : Nat} (h : s.stepCall number = some t) :
    ∃ stage u next, s.calls.lookup number = some stage ∧ s.stepStage stage = some (u, next) ∧
      t.writerStops = u.writerStops ∧ t.queue = u.queue ∧
      t.calls.lookup number = next.stage? ∧
      (∀ n, n ≠ number → t.calls.lookup n = s.calls.lookup n) ∧
      (∀ result, next = .finish result → t.results.lookup number = some result) ∧
      t.phase = u.phase := by
  obtain ⟨stage, u, next, hstage, hcall, rfl⟩ := stepCall_cases h
  have hcalls : u.calls = s.calls := by rw [stepStage_frame hcall]
  refine ⟨stage, u, next, hstage, hcall, ?_⟩
  rw [← hcalls]
  cases next with
  | goOn later =>
    exact ⟨rfl, rfl, lookup_setStage_self (hcalls ▸ hstage),
      fun n hn => lookup_setStage_of_ne later u.calls hn, nofun, rfl⟩
  | finish result =>
    refine ⟨rfl, rfl, Association.lookup_filter_self,
      fun n hn => Association.lookup_filter_of_ne hn, fun other hother => ?_, rfl⟩
    cases hother
    exact List.lookup_cons_self

/-- A call that takes the session with it comes from a stage at which it did so too, and no
    later one. -/
theorem takes_stepCall {number n : Nat} {later : Stage} (h : s.stepCall number = some t)
    (hlater : t.calls.lookup n = some later) (htakes : later.takes = true) :
    ∃ stage, s.calls.lookup n = some stage ∧ stage.takes = true ∧
      stage.closing ≤ later.closing := by
  obtain ⟨stage, u, next, hstage, hcall, -, -, hself, hothers, -⟩ := stage?_stepCall h
  by_cases hn : n = number
  · subst hn
    rw [hself] at hlater
    cases next with
    | finish result => cases hlater
    | goOn later' =>
      cases hlater
      exact ⟨stage, hstage, takes_stepStage hcall ▸ htakes, (closing_stepStage hcall).1⟩
  · exact ⟨later, hothers n hn ▸ hlater, htakes, Nat.le_refl _⟩

end System

/-! ## 2. The call that takes the session -/

/-- A call has begun that takes the session with it. -/
def History.Taken (history : History) : Prop := ∃ e ∈ history, e.2.takes = true

namespace History

variable {history before behind : History} {s : System} {move : Move}

theorem Taken.snoc (h : history.Taken) (e : System × Move) : Taken (history ++ [e]) := by
  obtain ⟨e', he, htakes⟩ := h
  exact ⟨e', List.mem_append_left _ he, htakes⟩

/-- Nothing begins behind a call that takes the session with it. -/
theorem Orderly.begins_eq_zero (h : Orderly (history ++ [(s, move)])) (htaken : history.Taken) :
    move.begins = 0 := by
  obtain ⟨e, he, htakes⟩ := htaken
  exact (List.pairwise_append.mp h.2).2.2 e he (s, move) List.mem_cons_self htakes

end History

/-- What the call that takes the session with it has done so far, and no other can have. -/
structure Taking (history : History) (s : System) : Prop where
  last : ∀ n stage, s.calls.lookup n = some stage → stage.takes = true →
    n + 1 = s.begun ∧ history.Taken
  /-- The order to shut down is its own, and it waits for the writer then. -/
  ordered : .shutdown ∈ history.entered → history.Taken ∧
    ∀ n stage, s.calls.lookup n = some stage → stage.takes = true → 1 ≤ stage.closing
  /-- It is done with the writer once the writer is told to stop, or has no sender any more. -/
  cut : s.writerStops = true ∨ s.queue.detached = true →
    (∃ fault, s.results.lookup 0 = some (.failed fault)) ∨ history.Taken ∧
      ∀ n stage, s.calls.lookup n = some stage → stage.takes = true → 2 ≤ stage.closing

namespace Taking

variable {history : History} {s t : System} {move : Move}

theorem entered_snoc_none (h : s.entered? move = none) :
    History.entered (history ++ [(s, move)]) = history.entered := by
  rw [History.entered_snoc, h]
  exact List.append_nil _

/-- What other tasks do, and what happens outside. -/
theorem aside (h : Taking history s) (hmove : System.Aside s t)
    (hentered : s.entered? move = none) (hstops : t.writerStops = s.writerStops)
    (hdetached : t.queue.detached = s.queue.detached) : Taking (history ++ [(s, move)]) t where
  last n stage hstage htakes := by
    obtain ⟨hn, htaken⟩ := h.last n stage (hmove.calls ▸ hstage) htakes
    exact ⟨hn.trans hmove.begun.symm, htaken.snoc _⟩
  ordered hin := by
    rw [entered_snoc_none hentered] at hin
    obtain ⟨htaken, hclosing⟩ := h.ordered hin
    exact ⟨htaken.snoc _, hmove.calls ▸ hclosing⟩
  cut hcut := by
    rw [hstops, hdetached] at hcut
    refine (h.cut hcut).imp (fun hfailed => hmove.results ▸ hfailed) ?_
    rintro ⟨htaken, hclosing⟩
    exact ⟨htaken.snoc _, hmove.calls ▸ hclosing⟩

/-- The beginning of a call. -/
theorem begin {stage : Stage} (h : Taking history s) (hs : s.Numbered)
    (horderly : History.Orderly (history ++ [(s, .begin stage)])) :
    Taking (history ++ [(s, .begin stage)]) (s.begin stage) := by
  have hfirst : ¬ history.Taken := fun htaken =>
    Nat.one_ne_zero (horderly.begins_eq_zero htaken)
  have hentered : History.entered (history ++ [(s, .begin stage)]) = history.entered :=
    entered_snoc_none rfl
  refine ⟨fun n other hother htakes => ?_, fun hin => ?_, fun hcut => ?_⟩
  · by_cases hn : n = s.begun
    · subst hn
      rw [hs.lookup_begin stage] at hother
      cases hother
      exact ⟨rfl, _, List.mem_append_right _ List.mem_cons_self, htakes⟩
    · rw [System.lookup_begin_of_ne stage hn] at hother
      exact absurd (h.last n other hother htakes).2 hfirst
  · rw [hentered] at hin
    exact absurd (h.ordered hin).1 hfirst
  · exact (h.cut hcut).imp id fun htaken => absurd htaken.1 hfirst

/-- A step of a call. -/
theorem call {number : Nat} (h : Taking history s) (hconnection : Connection history s)
    (hstep : s.perform (.step (.call number)) = some t) :
    Taking (history ++ [(s, .step (.call number))]) t := by
  obtain ⟨stage, u, next, hstage, hcall, hstops, hqueue, hself, -, hresult, -⟩ :=
    System.stage?_stepCall hstep
  -- if the call that steps takes the session, it is the only one
  have hown : stage.takes = true → ∀ n later, t.calls.lookup n = some later →
      later.takes = true → next = .goOn later := by
    intro htakes n later hlater htakes'
    obtain ⟨before, hbefore, hbefore', -⟩ := System.takes_stepCall hstep hlater htakes'
    have hn := (h.last n before hbefore hbefore').1
    have hnumber := (h.last number stage hstage htakes).1
    obtain rfl : n = number := by omega
    rw [hself] at hlater
    cases next with
    | finish result => cases hlater
    | goOn later' => rw [Option.some.inj hlater]
  refine ⟨fun n later hlater htakes => ?_, fun hin => ?_, fun hcut => ?_⟩
  · obtain ⟨before, hbefore, htakes', -⟩ := System.takes_stepCall hstep hlater htakes
    obtain ⟨hn, htaken⟩ := h.last n before hbefore htakes'
    exact ⟨hn.trans (System.begun_perform hstep).symm, htaken.snoc _⟩
  · rw [History.entered_snoc, System.entered?, hstage, Option.bind_some, List.mem_append,
      Option.mem_toList] at hin
    rcases hin with hin | hentering
    · obtain ⟨htaken, hclosing⟩ := h.ordered hin
      refine ⟨htaken.snoc _, fun n later hlater htakes => ?_⟩
      obtain ⟨before, hbefore, htakes', hle⟩ := System.takes_stepCall hstep hlater htakes
      exact Nat.le_trans (hclosing n before hbefore htakes') hle
    · have htakes : stage.takes = true := by
        obtain ⟨deadline, rfl⟩ := System.flush_of_entering hentering
        rfl
      refine ⟨(h.last number stage hstage htakes).2.snoc _, fun n later hlater htakes' => ?_⟩
      cases hown htakes n later hlater htakes'
      exact (System.closing_stepStage hcall).2 hentering
  · rw [hstops, hqueue] at hcut
    rcases System.cut_stepStage hcall with ⟨hstops', hdetached⟩ |
      ⟨htakes, -, later', rfl, hclosing⟩ | ⟨hconnects, fault, rfl⟩
    · rw [hstops', hdetached] at hcut
      rcases h.cut hcut with ⟨fault, hfailed⟩ | ⟨htaken, hclosing⟩
      · exact .inl ⟨fault, hconnection.result_perform hstep hfailed⟩
      · refine .inr ⟨htaken.snoc _, fun n later hlater htakes => ?_⟩
        obtain ⟨before, hbefore, htakes', hle⟩ := System.takes_stepCall hstep hlater htakes
        exact Nat.le_trans (hclosing n before hbefore htakes') hle
    · refine .inr ⟨(h.last number stage hstage htakes).2.snoc _, fun n later hlater htakes' => ?_⟩
      cases hown htakes n later hlater htakes'
      exact Nat.le_of_eq hclosing.symm
    · rcases hconnection.of_lookup hstage with ⟨rfl, -⟩ | ⟨-, hnot, -⟩
      · exact .inl ⟨fault, hresult _ rfl⟩
      · rw [hconnects] at hnot
        cases hnot

/-- **Every move keeps that one call alone takes the session.** -/
theorem perform (h : Taking history s) (hs : s.Numbered) (hconnection : Connection history s)
    (horderly : History.Orderly (history ++ [(s, move)])) (hstep : s.perform move = some t) :
    Taking (history ++ [(s, move)]) t := by
  have hother : (∀ n, move ≠ .step (.call n)) → (∀ stage, move ≠ .begin stage) →
      s.entered? move = none → t.writerStops = s.writerStops →
      t.queue.detached = s.queue.detached → Taking (history ++ [(s, move)]) t :=
    fun hcall hbegin => h.aside (System.aside_of_perform hstep hcall hbegin)
  cases move with
  | begin stage =>
    rw [System.perform] at hstep
    split at hstep
    · cases hstep
      exact h.begin hs horderly
    · cases hstep
  | step task =>
    cases task with
    | call number => exact h.call hconnection hstep
    | writer =>
      refine hother (by simp) (by simp) rfl ?_ (System.writerStep hstep).frame.2.1
      rw [System.stepWriter_frame hstep]
    | receiver =>
      refine hother (by simp) (by simp) rfl ?_ ?_
      · rw [System.stepReceiver_frame hstep]
      · rw [System.stepReceiver_frame hstep]
  | _ =>
    cases hstep
    exact hother (by simp) (by simp) rfl rfl rfl

theorem run {config : Config} {own : CapabilitySet} {link : Link} {now : Duration}
    (h : Run (.start config own link now) history s) (horderly : history.Orderly) :
    Taking history s := by
  induction h with
  | nil =>
    refine ⟨fun n stage hstage => ?_, fun hin => ?_, fun hcut => ?_⟩
    · cases hstage
    · cases hin
    · rcases hcut with hcut | hcut <;> cases hcut
  | snoc before hstep ih =>
    exact (ih horderly.front).perform before.numbered_of_start (.run before horderly.front) horderly
      hstep

end Taking

end NetconfClient.Session
