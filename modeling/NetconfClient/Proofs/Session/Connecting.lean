/-
  NetconfClient/Proofs/Session/Connecting.lean
  ============================================
  **One call connects, and everything else comes behind it.**

  A session is used in order (`Orderly`): the first call connects it, no other
  call begins before that one has succeeded, and a call that takes the session
  with it is the last to begin.  `Connection` says how far such a session has
  come: nobody has asked for it, the first call is at one of five stages, it is
  connected for good, or the call has failed and left it closed.
-/
import NetconfClient.Proofs.Session.Exchange
import NetconfClient.Proofs.Session.Teardown

namespace NetconfClient.Session

open Text

/-! ## 1. Use in order -/

/-- The stages of the call that connects. -/
def Stage.connects : Stage → Bool
  | greet | awaitGreeting _ | refuse _ | refuseTeardown _ _ | establish _ => true
  | _ => false

/-- How many steps lead to a stage of the call that connects. -/
def Stage.steps : Stage → Nat
  | awaitGreeting _ => 1
  | refuse _ | establish _ => 2
  | refuseTeardown (.close _) _ => 3
  | refuseTeardown (.fail _) _ => 4
  | _ => 0

/-- Whether a message is the farewell of a session. -/
def Purpose.isFarewell : Purpose → Bool
  | farewell _ => true
  | _ => false

/-- The calls that take the session with them, from their beginning to their end: closing it,
    with a farewell or without, and letting it go. -/
def Stage.takes : Stage → Bool
  | ifOpen purpose _ | register _ purpose _ | ifStillOpen _ purpose _ | enqueue _ purpose _
  | withdraw purpose _ => purpose.isFarewell
  | beginFarewell _ | awaitFarewell _ _ | close | flush _ | joinWriter _ | stopWriter
  | joinReceiver _ | stopReceiver | closeTeardown _ | drop _ | dropStop _
  | dropTeardown _ _ => true
  | greet | awaitGreeting _ | refuse _ | refuseTeardown _ _ | establish _ | awaitReply _ _ => false

/-- Whether a call that takes the session with it begins with a move. -/
def Move.takes : Move → Bool
  | begin stage => stage.takes
  | _ => false

/-- The first call connects, and no other begins before that one has succeeded. -/
def System.Admits (s : System) : Move → Prop
  | .begin stage =>
    if s.begun = 0 then stage = .greet
    else stage ≠ .greet ∧ s.results.lookup 0 = some .connected
  | _ => True

instance (s : System) (move : Move) : Decidable (s.Admits move) := by
  cases move <;> unfold System.Admits <;> infer_instance

namespace History

/-- A session that is used in order: calls begin where they may, and none behind one that
    takes the session with it. -/
def Orderly (history : History) : Prop :=
  (∀ e ∈ history, e.1.Admits e.2) ∧
    history.Pairwise fun e later => e.2.takes = true → later.2.begins = 0

instance (history : History) : Decidable history.Orderly := inferInstanceAs (Decidable (_ ∧ _))

/-- The number of steps that a call has taken. -/
def stepsOf (history : History) (number : Nat) : Nat :=
  history.countP fun e => e.2 == .step (.call number)

variable {history before behind : History} {s : System} {move : Move}

theorem Orderly.admits (h : Orderly (history ++ [(s, move)])) : s.Admits move :=
  h.1 (s, move) (List.mem_append_right _ List.mem_cons_self)

theorem Orderly.front (h : Orderly (before ++ behind)) : before.Orderly :=
  ⟨fun e he => h.1 e (List.mem_append_left _ he), (List.pairwise_append.mp h.2).1⟩

theorem stepsOf_snoc (history : History) (s : System) (move : Move) (number : Nat) :
    stepsOf (history ++ [(s, move)]) number =
      history.stepsOf number + if move = .step (.call number) then 1 else 0 := by
  simp [stepsOf, List.countP_append]

end History

namespace System

variable {s t : System} {move : Move}

/-! ## 2. Stages and other moves -/

/-- Whether a call goes on to connect. -/
def Next.connects : Next → Bool
  | goOn stage => stage.connects
  | finish _ => false

theorem Next.IsAftermath.connects {next : Next} (h : next.IsAftermath) : next.connects = false := by
  cases next with
  | finish result => rfl
  | goOn stage => cases stage <;> first | rfl | cases h

/-- The calls that do not connect never turn to connecting. -/
theorem connects_stepStage {stage : Stage} {next : Next} (h : s.stepStage stage = some (t, next))
    (hstage : stage.connects = false) : next.connects = false := by
  cases stage
  case greet | awaitGreeting | refuse | refuseTeardown | establish => cases hstage
  all_goals
    simp only [stepStage] at h
    repeat' split at h
  all_goals cases h
  all_goals first
    | rfl
    | exact (aftermath_refused _ _).connects
    | exact (aftermath_queued _ _ _).connects

/-- Only establishing a session sets what was agreed on. -/
theorem established_stepStage {stage : Stage} {next : Next}
    (h : s.stepStage stage = some (t, next)) (hstage : ∀ n, stage ≠ .establish n) :
    t.established = s.established := by
  cases htd : stage.teardown? with
  | some teardown =>
    rcases (stepStage_of_teardown htd h).1 with rfl | rfl
    · cases teardown <;> rfl
    · cases teardown <;> rfl
  | none =>
    cases stage
    case refuseTeardown | closeTeardown | dropTeardown => cases htd
    case establish n => exact absurd rfl (hstage n)
    all_goals
      simp only [stepStage] at h
      repeat' split at h
    all_goals cases h
    all_goals rfl

/-- The writer has nothing to do yet. -/
structure Untouched (s : System) : Prop where
  writer : s.writer = .idle
  queue : s.queue = ⟨[], false, false⟩
  stops : s.writerStops = false

theorem Untouched.stepWriter (h : s.Untouched) : s.stepWriter = none := by
  rw [System.stepWriter, h.stops, Bool.false_and, if_neg Bool.false_ne_true, workWriter, h.writer,
    h.queue]
  rfl

/-- What the moves that are neither steps nor beginnings of calls leave alone. -/
structure Aside (s t : System) : Prop where
  calls : t.calls = s.calls
  begun : t.begun = s.begun
  results : t.results = s.results
  established : t.established = s.established
  config : t.config = s.config
  phase : t.phase = s.phase ∨ t.phase = .closed
  now : s.now.nanos ≤ t.now.nanos
  untouched : s.Untouched → t.Untouched

theorem phase_tear (s : System) (teardown : Teardown) :
    (s.tear teardown).1.phase = s.phase ∨ (s.tear teardown).1.phase = .closed := by
  cases teardown with
  | close fault => exact .inr (Phase.advance_closed s.phase)
  | fail fault => exact .inl rfl

theorem aside_of_perform (h : s.perform move = some t) (hcall : ∀ n, move ≠ .step (.call n))
    (hbegin : ∀ stage, move ≠ .begin stage) : Aside s t := by
  cases move with
  | step task =>
    cases task with
    | call n => exact absurd rfl (hcall n)
    | writer =>
      have hphase : t.phase = s.phase ∨ t.phase = .closed := by
        rcases stepWriter_cases h with ⟨teardown, -, ht, -⟩ | ⟨-, ht, -⟩
        · rw [ht]
          exact phase_tear s teardown
        · rw [ht]
          exact .inl rfl
      have hframe := stepWriter_frame h
      refine ⟨by rw [hframe], by rw [hframe], by rw [hframe], by rw [hframe], by rw [hframe],
        hphase, by rw [hframe], fun hs => ?_⟩
      -- a writer that has nothing to do takes no step
      rw [perform, step, hs.stepWriter] at h
      cases h
    | receiver =>
      have hphase : t.phase = s.phase ∨ t.phase = .closed := by
        rcases stepReceiver_cases h with ⟨teardown, -, ht, -⟩ | ⟨-, ht, -⟩
        · rw [ht]
          exact phase_tear s teardown
        · rw [ht]
          exact .inl rfl
      have hframe := stepReceiver_frame h
      refine ⟨by rw [hframe], by rw [hframe], by rw [hframe], by rw [hframe], by rw [hframe],
        hphase, by rw [hframe], fun hs => ⟨?_, ?_, ?_⟩⟩
      · rw [hframe]
        exact hs.writer
      · rw [hframe]
        exact hs.queue
      · rw [hframe]
        exact hs.stops
  | begin stage => exact absurd rfl (hbegin stage)
  | elapse span =>
    cases h
    exact ⟨rfl, rfl, rfl, rfl, rfl, .inl rfl, Nat.le_add_right _ _, fun hs => ⟨hs.1, hs.2, hs.3⟩⟩
  | link link =>
    cases h
    exact ⟨rfl, rfl, rfl, rfl, rfl, .inl rfl, Nat.le_refl _, fun hs => ⟨hs.1, hs.2, hs.3⟩⟩
  | subscribe =>
    cases h
    exact ⟨rfl, rfl, rfl, rfl, rfl, .inl rfl, Nat.le_refl _, fun hs => ⟨hs.1, hs.2, hs.3⟩⟩
  | unsubscribe stream =>
    cases h
    exact ⟨rfl, rfl, rfl, rfl, rfl, .inl rfl, Nat.le_refl _, fun hs => ⟨hs.1, hs.2, hs.3⟩⟩

end System

/-! ## 3. How far a session has come -/

/-- The session is not open, and has never been. -/
structure Unopened (history : History) (s : System) : Prop where
  phase : s.phase = .connecting ∨ s.phase = .closed
  before : ∀ e ∈ history, e.1.phase ≠ .opened
  established : s.established = none

theorem Unopened.snoc {history : History} {s t : System} (h : Unopened history s)
    (move : Move) (hphase : t.phase = s.phase ∨ t.phase = .closed)
    (hestablished : t.established = s.established) : Unopened (history ++ [(s, move)]) t where
  phase := by
    rcases hphase with ht | ht
    · rw [ht]
      exact h.phase
    · exact .inr ht
  before := by
    intro e he
    rcases List.mem_append.mp he with he | he
    · exact h.before e he
    · rw [List.mem_singleton.mp he]
      rcases h.phase with hs | hs
      · rw [hs]
        decide
      · rw [hs]
        decide
  established := hestablished.trans h.established

/-- What holds at the stages of the call that connects. -/
def Asks (s : System) : Stage → Prop
  | .greet => s.Untouched
  | .awaitGreeting deadline => deadline.nanos ≤ s.now.nanos + s.config.helloTimeout.nanos
  | .refuse fault | .refuseTeardown (.close _) fault => ∃ text, fault = .capabilityExchange text
  | .refuseTeardown (.fail _) fault =>
    (∃ text, fault = .capabilityExchange text) ∧ s.phase = .closed
  | .establish n => s.exchange = some (.ok n)
  | _ => False

/-- What the call that connects finds when it stops waiting: the outcome of the exchange, or that
    the time limit has passed without one. -/
def System.verdict (s : System) : Except Fault Negotiated :=
  s.exchange.getD (.error (.capabilityExchange
    ("no greeting from peer within " ++ s.config.helloTimeout.render)))

/-- What the call that connects has found, by its stage. -/
def Stage.verdict? : Stage → Option (Except Fault Negotiated)
  | refuse fault | refuseTeardown _ fault => some (.error fault)
  | establish n => some (.ok n)
  | _ => none

/-- What the call that connects has found behind a step at a stage. -/
def System.verdictBehind? (s : System) : Stage → Option (Except Fault Negotiated)
  | .awaitGreeting _ => some s.verdict
  | stage => stage.verdict?

/-- Whenever the call that connects stopped waiting, this is what it found. -/
def History.Finds (history : History) (verdict : Option (Except Fault Negotiated)) : Prop :=
  ∀ u deadline, (u, .step (.call 0)) ∈ history →
    u.calls.lookup 0 = some (.awaitGreeting deadline) → verdict = some u.verdict

/-- How the call that connects has failed. -/
inductive Failure (history : History) (s : System) : Fault → Prop where
  /-- It found that there would be no session. -/
  | exchange {text : String} (hfinds : history.Finds (some (.error (.capabilityExchange text)))) :
    Failure history s (.capabilityExchange text)
  /-- Another task closed the session between the exchange and its opening. -/
  | overtaken {n : Negotiated} {u : System} (hexchange : s.exchange = some (.ok n))
    (hfinds : history.Finds (some (.ok n))) (hmem : (u, .step (.call 0)) ∈ history)
    (hstage : u.calls.lookup 0 = some (.establish n)) (hphase : u.phase = .closed) :
    Failure history s .notConnected

/-- How far a session has come that is used in order. -/
inductive Connection (history : History) (s : System) : Prop where
  /-- No call has begun. -/
  | unasked (hbegun : s.begun = 0) (hcalls : s.calls = []) (hresults : s.results = [])
    (hsteps : history.stepsOf 0 = 0) (huntouched : s.Untouched) (hunopened : Unopened history s)
  /-- The first call is connecting. -/
  | asking (stage : Stage) (hbegun : s.begun = 1) (hcalls : s.calls = [(0, stage)])
    (hresults : s.results = []) (hsteps : history.stepsOf 0 = stage.steps) (hasks : Asks s stage)
    (hunopened : Unopened history s) (hfinds : history.Finds stage.verdict?)
  /-- It has succeeded. -/
  | connected (n : Negotiated) (hbegun : s.begun ≠ 0)
    (hcalls : ∀ c ∈ s.calls, c.1 ≠ 0 ∧ c.2.connects = false)
    (hresult : s.results.lookup 0 = some .connected) (hsteps : history.stepsOf 0 ≤ 5)
    (hestablished : s.established = some n) (hexchange : s.exchange = some (.ok n))
    (hfinds : history.Finds (some (.ok n)))
  /-- It has failed. -/
  | refused (fault : Fault) (hbegun : s.begun = 1) (hcalls : s.calls = [])
    (hresults : s.results = [(0, .failed fault)]) (hsteps : history.stepsOf 0 ≤ 5)
    (hunopened : Unopened history s) (hphase : s.phase = .closed)
    (hfailure : Failure history s fault)

namespace History.Finds

variable {history : History} {s : System} {move : Move} {stage : Stage}
  {verdict : Option (Except Fault Negotiated)}

theorem of_stepsOf (h : history.stepsOf 0 = 0) : history.Finds verdict := by
  intro u deadline hmem
  have hnone := List.countP_eq_zero.mp h _ hmem
  exact absurd (beq_self_eq_true _) hnone

theorem snoc (h : history.Finds verdict) (hne : move ≠ .step (.call 0)) :
    History.Finds (history ++ [(s, move)]) verdict := by
  intro u deadline hmem
  rcases List.mem_append.mp hmem with hmem | hmem
  · exact h u deadline hmem
  · have hlast := List.mem_singleton.mp hmem
    exact absurd (Prod.mk.inj hlast).2.symm hne

/-- A step of the call that connects finds something only when it stops waiting. -/
theorem step (h : history.Finds stage.verdict?) (hstage : s.calls.lookup 0 = some stage) :
    History.Finds (history ++ [(s, .step (.call 0))]) (s.verdictBehind? stage) := by
  intro u deadline hmem hwaits
  rcases List.mem_append.mp hmem with hmem | hmem
  · have hfound := h u deadline hmem hwaits
    cases stage
    case awaitGreeting => cases hfound
    all_goals exact hfound
  · obtain ⟨rfl, -⟩ := Prod.mk.inj (List.mem_singleton.mp hmem)
    rw [hstage] at hwaits
    cases hwaits
    rfl

end History.Finds

/-- A failure stays what it is as long as the call that connects takes no step. -/
theorem Failure.snoc {history : History} {s t : System} {move : Move} {fault : Fault}
    (h : Failure history s fault) (hne : move ≠ .step (.call 0))
    (hexchange : ∀ n, s.exchange = some (.ok n) → t.exchange = some (.ok n)) :
    Failure (history ++ [(s, move)]) t fault := by
  cases h with
  | exchange hfinds => exact .exchange (hfinds.snoc hne)
  | overtaken hok hfinds hmem hstage hphase =>
    exact .overtaken (hexchange _ hok) (hfinds.snoc hne) (List.mem_append_left _ hmem) hstage hphase

namespace Connection

variable {history : History} {s t : System} {move : Move}

theorem stepsOf_of_ne (history : History) (s : System) (h : move ≠ .step (.call 0)) :
    History.stepsOf (history ++ [(s, move)]) 0 = history.stepsOf 0 := by
  rw [History.stepsOf_snoc, if_neg h, Nat.add_zero]

theorem closed_of_aside (h : System.Aside s t) (hs : s.phase = .closed) : t.phase = .closed := by
  rcases h.phase with ht | ht
  · exact ht.trans hs
  · exact ht

theorem Asks.aside {stage : Stage} (h : Asks s stage) (hmove : System.Aside s t)
    (hexchange : ∀ n, s.exchange = some (.ok n) → t.exchange = some (.ok n)) : Asks t stage := by
  cases stage
  case greet => exact hmove.untouched h
  case awaitGreeting deadline =>
    have hnow := hmove.now
    rw [Asks] at h ⊢
    rw [hmove.config]
    omega
  case refuse fault => exact h
  case refuseTeardown teardown fault =>
    cases teardown with
    | close cause => exact h
    | fail cause => exact ⟨h.1, closed_of_aside hmove h.2⟩
  case establish n => exact hexchange n h
  all_goals exact h

/-- What other tasks do, and what happens outside, leaves the connection where it is. -/
theorem aside (h : Connection history s) (hmove : System.Aside s t) (hne : move ≠ .step (.call 0))
    (hexchange : ∀ n, s.exchange = some (.ok n) → t.exchange = some (.ok n)) :
    Connection (history ++ [(s, move)]) t := by
  have hsame := stepsOf_of_ne history s hne
  cases h with
  | unasked hbegun hcalls hresults hsteps huntouched hunopened =>
    exact .unasked (hmove.begun.trans hbegun) (hmove.calls.trans hcalls)
      (hmove.results.trans hresults) (hsame.trans hsteps) (hmove.untouched huntouched)
      (hunopened.snoc move hmove.phase hmove.established)
  | asking stage hbegun hcalls hresults hsteps hasks hunopened hfinds =>
    exact .asking stage (hmove.begun.trans hbegun) (hmove.calls.trans hcalls)
      (hmove.results.trans hresults) (hsame ▸ hsteps) (Asks.aside hasks hmove hexchange)
      (hunopened.snoc move hmove.phase hmove.established) (hfinds.snoc hne)
  | connected n hbegun hcalls hresult hsteps hestablished hdecided hfinds =>
    exact .connected n (hmove.begun ▸ hbegun) (hmove.calls ▸ hcalls) (hmove.results ▸ hresult)
      (hsame ▸ hsteps) (hmove.established.trans hestablished) (hexchange n hdecided)
      (hfinds.snoc hne)
  | refused fault hbegun hcalls hresults hsteps hunopened hphase hfailure =>
    exact .refused fault (hmove.begun.trans hbegun) (hmove.calls.trans hcalls)
      (hmove.results.trans hresults) (hsame ▸ hsteps)
      (hunopened.snoc move hmove.phase hmove.established) (closed_of_aside hmove hphase)
      (hfailure.snoc hne hexchange)

theorem steps_le (stage : Stage) : stage.steps ≤ 4 := by
  cases stage
  case refuseTeardown teardown fault => cases teardown <;> simp [Stage.steps]
  all_goals simp [Stage.steps]

/-- **A step of the call that connects**: it goes on by what it has found, or it has succeeded
    with what was negotiated, or it has failed and left the session closed. -/
theorem step_of_asks {handed : List String} {stage : Stage} {u : System} {next : System.Next}
    (hasks : Asks s stage) (hexchanged : Exchanged handed s)
    (hphase : s.phase = .connecting ∨ s.phase = .closed)
    (h : s.stepStage stage = some (u, next)) :
    (∃ later, next = .goOn later ∧ Asks u later ∧ later.steps = stage.steps + 1 ∧
      later.verdict? = s.verdictBehind? stage ∧ (u.phase = s.phase ∨ u.phase = .closed) ∧
      u.established = s.established) ∨
    (∃ n, next = .finish .connected ∧ stage = .establish n ∧ u.established = some n ∧
      s.exchange = some (.ok n)) ∨
    (∃ fault, next = .finish (.failed fault) ∧ u.phase = .closed ∧
      u.established = s.established ∧ ((∃ text, fault = .capabilityExchange text) ∧
          s.verdictBehind? stage = some (.error fault) ∨
        fault = .notConnected ∧ ∃ n, stage = .establish n ∧ s.exchange = some (.ok n) ∧
          s.phase = .closed)) := by
  cases stage
  case greet =>
    simp only [System.stepStage, System.Untouched.queue hasks] at h
    cases h
    exact .inl ⟨_, rfl, Nat.le_refl _, rfl, rfl, .inl rfl, rfl⟩
  case awaitGreeting deadline =>
    simp only [System.stepStage] at h
    simp only [System.verdictBehind?, System.verdict]
    split at h
    · next n hexchange =>
      cases h
      exact .inl ⟨_, rfl, hexchange, rfl, by rw [hexchange]; rfl, .inl rfl, rfl⟩
    · next fault hexchange =>
      cases h
      exact .inl ⟨_, rfl, hexchanged.fault_of_error hexchange, rfl, by rw [hexchange]; rfl,
        .inl rfl, rfl⟩
    · next hexchange =>
      split at h
      · cases h
        exact .inl ⟨_, rfl, ⟨_, rfl⟩, rfl, by rw [hexchange]; rfl, .inl rfl, rfl⟩
      · cases h
  case refuse fault =>
    simp only [System.stepStage] at h
    cases h
    exact .inl ⟨_, rfl, hasks, rfl, rfl, .inl rfl, rfl⟩
  case refuseTeardown teardown fault =>
    simp only [System.stepStage] at h
    cases teardown with
    | close cause =>
      by_cases hclosed : s.phase = .closed
      · simp only [System.tear, if_pos hclosed] at h
        cases h
        exact .inr (.inr ⟨_, rfl, Phase.advance_closed _, rfl, .inl ⟨hasks, rfl⟩⟩)
      · simp only [System.tear, if_neg hclosed] at h
        cases h
        have hafter : (s.advance .closed).phase = .closed := Phase.advance_closed _
        exact .inl ⟨_, rfl, ⟨hasks, hafter⟩, rfl, rfl, .inr hafter, rfl⟩
    | fail cause =>
      simp only [System.tear] at h
      cases h
      exact .inr (.inr ⟨_, rfl, hasks.2, rfl, .inl ⟨hasks.1, rfl⟩⟩)
  case establish n =>
    simp only [System.stepStage] at h
    split at h
    · cases h
      exact .inr (.inl ⟨n, rfl, rfl, rfl, hasks⟩)
    · next hconnecting =>
      cases h
      have hclosed : s.phase = .closed := hphase.resolve_left hconnecting
      refine .inr (.inr ⟨_, rfl, ?_, rfl, .inr ⟨rfl, n, rfl, hasks, hclosed⟩⟩)
      show s.phase.advance .opened = .closed
      rw [hclosed]
      rfl
  all_goals exact absurd hasks id

/-- A step of a call. -/
theorem call {handed : List String} {number : Nat} (h : Connection history s)
    (hexchanged : Exchanged handed s) (hstep : s.stepCall number = some t) :
    Connection (history ++ [(s, .step (.call number))]) t := by
  obtain ⟨stage, u, next, hstage, hcall, rfl⟩ := System.stepCall_cases hstep
  have hframe := System.stepStage_frame hcall
  cases h with
  | unasked _ hcalls =>
    rw [hcalls] at hstage
    cases hstage
  | refused _ _ hcalls =>
    rw [hcalls] at hstage
    cases hstage
  | asking asked hbegun hcalls hresults hsteps hasks hunopened hfinds =>
    obtain ⟨rfl, rfl⟩ : number = 0 ∧ asked = stage := by
      rw [hcalls, List.lookup_cons] at hstage
      split at hstage
      · next hnumber => exact ⟨by simpa using hnumber, Option.some.inj hstage⟩
      · cases hstage
    have hmore : History.stepsOf (history ++ [(s, .step (.call 0))]) 0 = asked.steps + 1 := by
      rw [History.stepsOf_snoc, if_pos rfl, hsteps]
    have hfive : asked.steps + 1 ≤ 5 := Nat.succ_le_succ (steps_le asked)
    have hu : u.calls = [(0, asked)] ∧ u.begun = 1 ∧ u.results = [] ∧ u.exchange = s.exchange := by
      rw [hframe]
      exact ⟨hcalls, hbegun, hresults, rfl⟩
    obtain ⟨hucalls, hubegun, huresults, huexchange⟩ := hu
    have hfound := hfinds.step hstage
    obtain ⟨later, rfl, hlater, hrank, hverdict, hphase, hestablished⟩ |
      ⟨n, rfl, rfl, hestablished, hexchange⟩ | ⟨fault, rfl, hphase, hestablished, hfault⟩ :=
        step_of_asks hasks hexchanged hunopened.phase hcall
    · refine .asking later hubegun ?_ huresults (hmore.trans hrank.symm) ?_
        (hunopened.snoc _ hphase hestablished) (hverdict ▸ hfound)
      · show System.setStage 0 later u.calls = [(0, later)]
        rw [hucalls]
        rfl
      · cases later
        case greet => exact ⟨hlater.writer, hlater.queue, hlater.stops⟩
        case refuseTeardown teardown cause => cases teardown <;> exact hlater
        all_goals exact hlater
    · refine .connected n (by rw [hubegun]; decide) ?_ ?_ (hmore ▸ hfive) hestablished
        (huexchange.trans hexchange) hfound
      · show ∀ c ∈ u.calls.filter (·.1 != 0), _
        rw [hucalls]
        exact List.forall_mem_nil _
      · show ((0, CallResult.connected) :: u.results).lookup 0 = _
        rfl
    · refine .refused fault hubegun ?_ ?_ (hmore ▸ hfive)
        (hunopened.snoc _ (.inr hphase) hestablished) hphase ?_
      · show u.calls.filter (·.1 != 0) = []
        rw [hucalls]
        rfl
      · show (0, CallResult.failed fault) :: u.results = _
        rw [huresults]
      · rcases hfault with ⟨⟨text, rfl⟩, hverdict⟩ | ⟨rfl, n, rfl, hexchange, hclosed⟩
        · exact .exchange (hverdict ▸ hfound)
        · exact .overtaken (huexchange.trans hexchange) hfound
            (List.mem_append_right _ List.mem_cons_self) hstage hclosed
  | connected n hbegun hcalls hresult hsteps hestablished hexchange hfinds =>
    obtain ⟨hnumber, hconnects⟩ := hcalls _ (Association.mem_of_lookup hstage)
    have hne : Move.step (.call number) ≠ .step (.call 0) := by
      intro heq
      cases heq
      exact hnumber rfl
    have hkept : u.established = some n := by
      rw [System.established_stepStage hcall ?_, hestablished]
      rintro n' rfl
      cases hconnects
    have hu : u.begun ≠ 0 ∧ (∀ c ∈ u.calls, c.1 ≠ 0 ∧ c.2.connects = false) ∧
        u.results.lookup 0 = some .connected ∧ u.exchange = some (.ok n) := by
      rw [hframe]
      exact ⟨hbegun, hcalls, hresult, hexchange⟩
    have hquiet := (stepsOf_of_ne history s hne).symm ▸ hsteps
    have hnext := System.connects_stepStage hcall hconnects
    cases next with
    | goOn later =>
      refine .connected n hu.1 ?_ hu.2.2.1 hquiet hkept hu.2.2.2 (hfinds.snoc hne)
      intro c hc
      obtain ⟨d, hd, rfl⟩ := List.mem_map.mp hc
      split
      · exact ⟨hnumber, hnext⟩
      · exact hu.2.1 d hd
    | finish result =>
      refine .connected n hu.1 (fun c hc => hu.2.1 c (List.mem_filter.mp hc).1) ?_ hquiet hkept
        hu.2.2.2 (hfinds.snoc hne)
      show ((number, result) :: u.results).lookup 0 = some .connected
      rw [List.lookup_cons, beq_false_of_ne (Ne.symm hnumber)]
      exact hu.2.2.1

/-- The beginning of a call. -/
theorem begin {stage : Stage} (h : Connection history s) (hadmits : s.Admits (.begin stage))
    (hentry : stage.isEntry = true) :
    Connection (history ++ [(s, .begin stage)]) (s.begin stage) := by
  have hne : Move.begin stage ≠ .step (.call 0) := nofun
  have hsame := stepsOf_of_ne history s hne
  cases h with
  | unasked hbegun hcalls hresults hsteps huntouched hunopened =>
    rw [System.Admits, if_pos hbegun] at hadmits
    subst hadmits
    refine .asking .greet ?_ ?_ hresults (hsame.trans hsteps)
      ⟨huntouched.writer, huntouched.queue, huntouched.stops⟩ (hunopened.snoc _ (.inl rfl) rfl)
      (.of_stepsOf (hsame.trans hsteps))
    · show s.begun + 1 = 1
      rw [hbegun]
    · show s.calls ++ [(s.begun, Stage.greet)] = _
      rw [hcalls, hbegun]
      rfl
  | asking asked hbegun hcalls hresults =>
    rw [System.Admits, if_neg (by rw [hbegun]; decide), hresults] at hadmits
    cases hadmits.2
  | refused fault hbegun hcalls hresults =>
    rw [System.Admits, if_neg (by rw [hbegun]; decide), hresults] at hadmits
    cases hadmits.2
  | connected n hbegun hcalls hresult hsteps hestablished hexchange hfinds =>
    rw [System.Admits, if_neg hbegun] at hadmits
    refine .connected n (Nat.succ_ne_zero _) ?_ hresult (hsame ▸ hsteps) hestablished hexchange
      (hfinds.snoc hne)
    intro c hc
    rcases List.mem_append.mp hc with hc | hc
    · exact hcalls c hc
    · rw [List.mem_singleton.mp hc]
      refine ⟨hbegun, ?_⟩
      cases stage
      case greet => exact absurd rfl hadmits.1
      case awaitGreeting | refuse | refuseTeardown | establish => cases hentry
      all_goals rfl

/-- **Every move keeps how far a session has come.** -/
theorem perform {handed : List String} (h : Connection history s)
    (hexchanged : Exchanged handed s) (hadmits : s.Admits move) (hstep : s.perform move = some t) :
    Connection (history ++ [(s, move)]) t := by
  have hother : (∀ n, move ≠ .step (.call n)) → (∀ stage, move ≠ .begin stage) →
      Connection (history ++ [(s, move)]) t := fun hcall hbegin =>
    h.aside (System.aside_of_perform hstep hcall hbegin) (hcall 0)
      fun n hn => hexchanged.exchange_perform hstep hn
  cases move with
  | begin stage =>
    rw [System.perform] at hstep
    split at hstep
    · next hentry =>
      cases hstep
      exact h.begin hadmits hentry
    · cases hstep
  | step task =>
    cases task with
    | call number => exact h.call hexchanged hstep
    | writer => exact hother (by simp) (by simp)
    | receiver => exact hother (by simp) (by simp)
  | _ => exact hother (by simp) (by simp)

theorem run {config : Config} {own : CapabilitySet} {link : Link} {now : Text.Duration}
    (h : Run (.start config own link now) history s) (horderly : history.Orderly) :
    Connection history s := by
  induction h with
  | nil =>
    exact .unasked rfl rfl rfl rfl ⟨rfl, rfl, rfl⟩ ⟨.inl rfl, List.forall_mem_nil _, rfl⟩
  | snoc before hstep ih =>
    exact (ih horderly.front).perform (Exchanged.run before) horderly.admits hstep

/-- A call under way is the one that connects, or another one in a session that is connected. -/
theorem of_lookup {number : Nat} {stage : Stage} (h : Connection history s)
    (hstage : s.calls.lookup number = some stage) :
    (number = 0 ∧ s.results = [] ∧ history.stepsOf 0 = stage.steps ∧ Asks s stage) ∨
      (number ≠ 0 ∧ stage.connects = false ∧ s.results.lookup 0 = some .connected) := by
  have hmem := Association.mem_of_lookup hstage
  cases h with
  | unasked _ hcalls =>
    rw [hcalls] at hmem
    cases hmem
  | refused _ _ hcalls =>
    rw [hcalls] at hmem
    cases hmem
  | asking asked _ hcalls hresults hsteps hasks =>
    rw [hcalls, List.mem_singleton] at hmem
    obtain ⟨rfl, rfl⟩ := Prod.mk.inj hmem
    exact .inl ⟨rfl, hresults, hsteps, hasks⟩
  | connected _ _ hcalls hconnected =>
    exact .inr ⟨(hcalls _ hmem).1, (hcalls _ hmem).2, hconnected⟩

/-- The call that connects has come to an end: it has succeeded with what it found, or has failed
    and left the session closed. -/
theorem of_result {result : CallResult} (h : Connection history s)
    (hresult : s.results.lookup 0 = some result) :
    (result = .connected ∧ ∃ n, s.established = some n ∧ s.exchange = some (.ok n) ∧
        history.Finds (some (.ok n))) ∨
      ∃ fault, result = .failed fault ∧ s.phase = .closed ∧ Failure history s fault := by
  cases h with
  | unasked _ _ hresults =>
    rw [hresults] at hresult
    cases hresult
  | asking _ _ _ hresults =>
    rw [hresults] at hresult
    cases hresult
  | connected n _ _ hconnected _ hestablished hexchange hfinds =>
    rw [hconnected] at hresult
    exact .inl ⟨(Option.some.inj hresult).symm, n, hestablished, hexchange, hfinds⟩
  | refused fault _ _ hresults _ _ hphase hfailure =>
    rw [hresults] at hresult
    cases hresult
    exact .inr ⟨fault, rfl, hphase, hfailure⟩

/-- What the call that connects has come to stays. -/
theorem result_perform {result : CallResult} (h : Connection history s)
    (hstep : s.perform move = some t) (hresult : s.results.lookup 0 = some result) :
    t.results.lookup 0 = some result := by
  by_cases hcall : ∃ n, move = .step (.call n)
  · obtain ⟨number, rfl⟩ := hcall
    obtain ⟨stage, u, next, hstage, hcall, rfl⟩ := System.stepCall_cases hstep
    have hresults : u.results = s.results := by rw [System.stepStage_frame hcall]
    cases next with
    | goOn later => exact hresults ▸ hresult
    | finish r =>
      have hnumber : number ≠ 0 := by
        rcases h.of_lookup hstage with ⟨-, hnone, -⟩ | ⟨hnumber, -⟩
        · rw [hnone] at hresult
          cases hresult
        · exact hnumber
      show ((number, r) :: u.results).lookup 0 = some result
      rw [List.lookup_cons, beq_false_of_ne (Ne.symm hnumber), hresults]
      exact hresult
  · have hresults : t.results = s.results := by
      cases move with
      | step task =>
        cases task with
        | writer => rw [System.stepWriter_frame hstep]
        | receiver => rw [System.stepReceiver_frame hstep]
        | call n => exact absurd ⟨n, rfl⟩ hcall
      | _ => rw [System.perform_frame hstep nofun]
    rw [hresults]
    exact hresult

end Connection

end NetconfClient.Session
