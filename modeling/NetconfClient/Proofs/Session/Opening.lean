/-
  NetconfClient/Proofs/Session/Opening.lean
  =========================================
  **A session opens on a valid first greeting alone, and that greeting is final.**

  The call that connects a session succeeds only if the first greeting that was
  handed on could be negotiated, and then the session is what that message said
  it is, for good.  In every other case it fails and leaves the session closed,
  without having opened it for a moment.  It takes five steps at most, and waits
  for nothing but the exchange and its own time limit; what it finds then it does
  not revise, so a greeting behind the time limit comes too late.
-/
import NetconfClient.Proofs.Session.Connecting

namespace NetconfClient.Session

open Text Framing

/-- What a session that is used in order has come to, by the messages that were handed on. -/
structure Opening (config : Config) (own : CapabilitySet) (history : History) (s : System) :
    Prop where
  /-- It opens on the first greeting of its stream, and what that one said stays. -/
  success : s.results.lookup 0 = some .connected →
    ∃ n frames frame rest later,
      GreetingAt own config.messageLimit history.reads.flatten history.handed n frames frame rest
        later ∧
      s.established = some n ∧ s.intake.framer.framing = n.base.framing ∧
      ∀ behind t, Run s behind t → History.Orderly (history ++ behind) →
        t.results.lookup 0 = some .connected ∧ t.established = some n ∧
          t.intake.framer.framing = n.base.framing
  /-- Without a greeting, or with a first one that cannot be negotiated, it is never open, and
      connecting comes to a fault of the exchange. -/
  refusal : (∀ text, history.handed.find? Inbound.greets = some text →
      ∃ fault, negotiate own text = .error fault) →
    (∀ e ∈ history, e.1.phase ≠ .opened) ∧ s.phase ≠ .opened ∧
      ∀ result, s.results.lookup 0 = some result →
        s.phase = .closed ∧ ∃ text, result = .failed (.capabilityExchange text)
  /-- Whenever connecting has failed, the session is closed and has never been open.  The fault is
      one of the exchange, unless the session was closed between a valid first greeting and its
      opening. -/
  failure : ∀ result, s.results.lookup 0 = some result → result ≠ .connected →
    s.phase = .closed ∧ (∀ e ∈ history, e.1.phase ≠ .opened) ∧ s.established = none ∧
      ((∃ text, result = .failed (.capabilityExchange text)) ∨
        result = .failed .notConnected ∧ ∃ text n u,
          history.handed.find? Inbound.greets = some text ∧ negotiate own text = .ok n ∧
          (u, .step (.call 0)) ∈ history ∧ u.calls.lookup 0 = some (.establish n) ∧
          u.phase = .closed)
  /-- What the call that connects finds when it stops waiting is what connecting comes to, even if
      a greeting is handed on behind it. -/
  verdict : ∀ u deadline, (u, .step (.call 0)) ∈ history →
    u.calls.lookup 0 = some (.awaitGreeting deadline) →
    ∀ result, s.results.lookup 0 = some result →
      (u.exchange = none → result = .failed (.capabilityExchange
        ("no greeting from peer within " ++ config.helloTimeout.render))) ∧
      (∀ fault, u.exchange = some (.error fault) → result = .failed fault) ∧
      (∀ n, u.exchange = some (.ok n) → result = .connected ∨ result = .failed .notConnected)
  /-- Other messages leave the exchange as it is; in front of a greeting only the end of
      receiving decides it. -/
  unmoved : (∀ m, s.receiver = .routing m → Inbound.greets m = false →
      ∃ t, s.perform (.step .receiver) = some t ∧ t.receiver = .pulling ∧ t.intake = s.intake ∧
        t.exchange = s.exchange) ∧
    (history.handed.find? Inbound.greets = none → s.exchange = none ∨
      ∃ fault, s.exchange = some (.error (.capabilityExchange
        ("transport failed before peer greeting: " ++ Fault.message fault))))
  /-- A greeting decides the exchange, and so does the end of receiving. -/
  decided : (∀ text, history.handed.find? Inbound.greets = some text →
      s.exchange = some (negotiate own text)) ∧
    (∀ fault, s.receiver = .ending fault → ∃ t, s.perform (.step .receiver) = some t ∧
      t.exchange.isSome = true) ∧
    (s.exchange = none → s.receiverStops = false →
      (∃ t, s.perform (.step .receiver) = some t) ∨
        s.receiver = .reading ∧ s.link.read s.config.readSize = .blocked)
  /-- Connecting returns: it takes five steps at most, and can take the next one unless it
      waits for the exchange within its time limit. -/
  returns : history.stepsOf 0 ≤ 5 ∧
    (s.begun ≠ 0 → s.results.lookup 0 = none →
      (∃ t, s.perform (.step (.call 0)) = some t) ∨
        ∃ deadline, s.calls = [(0, .awaitGreeting deadline)] ∧ s.exchange = none ∧
          s.isDue deadline = false ∧ deadline.nanos ≤ s.now.nanos + config.helloTimeout.nanos)

variable {config : Config} {own : CapabilitySet} {link : Link} {now : Duration} {s t : System}
  {history behind : History} {handed : List String}

/-! ## 1. What can always go on -/

/-- The call that connects can take its next step unless it waits for the exchange. -/
theorem exists_step_of_asks {stage : Stage} (hcalls : s.calls = [(0, stage)])
    (hasks : Asks s stage) :
    (∃ t, s.perform (.step (.call 0)) = some t) ∨
      ∃ deadline, stage = .awaitGreeting deadline ∧ s.exchange = none ∧
        s.isDue deadline = false := by
  have hstage : s.calls.lookup 0 = some stage := by
    rw [hcalls]
    rfl
  have hstep : (s.stepStage stage).isSome → ∃ t, s.perform (.step (.call 0)) = some t := by
    intro h
    obtain ⟨⟨u, next⟩, hr⟩ := Option.isSome_iff_exists.mp h
    simp only [System.perform, System.step, System.stepCall, hstage, hr]
    cases next <;> exact ⟨_, rfl⟩
  cases stage
  case greet => exact .inl (hstep (by simp [System.stepStage, System.Untouched.queue hasks]))
  case awaitGreeting deadline =>
    cases hexchange : s.exchange with
    | none =>
      cases hdue : s.isDue deadline with
      | false => exact .inr ⟨deadline, rfl, rfl, hdue⟩
      | true => exact .inl (hstep (by simp [System.stepStage, hexchange, hdue]))
    | some outcome =>
      cases outcome with
      | ok n => exact .inl (hstep (by simp [System.stepStage, hexchange]))
      | error fault => exact .inl (hstep (by simp [System.stepStage, hexchange]))
  case refuse fault => exact .inl (hstep rfl)
  case refuseTeardown teardown fault =>
    have htask : s.teardown? (.call 0) = some teardown := by
      rw [System.teardown?, hstage]
      rfl
    exact .inl (System.exists_step_of_teardown htask)
  case establish n =>
    by_cases hphase : s.phase = .connecting
    · exact .inl (hstep (by simp [System.stepStage, hphase]))
    · exact .inl (hstep (by simp [System.stepStage, hphase]))
  all_goals exact absurd hasks id

/-- The receiver can take its next step unless it has ended or waits for octets. -/
theorem exists_step_of_receiver (hended : s.receiver ≠ .ended) :
    (∃ t, s.perform (.step .receiver) = some t) ∨
      s.receiver = .reading ∧ s.link.read s.config.readSize = .blocked := by
  have hstep : s.stepReceiver.isSome → ∃ t, s.perform (.step .receiver) = some t :=
    fun h => Option.isSome_iff_exists.mp h
  cases hreceiver : s.receiver with
  | reading =>
    cases hstop : s.receiverStops with
    | true => exact .inl (hstep (by simp [System.stepReceiver, hstop, hreceiver]))
    | false =>
      cases hread : s.link.read s.config.readSize with
      | blocked => exact .inr ⟨rfl, rfl⟩
      | _ =>
        refine .inl (hstep ?_)
        simp [System.stepReceiver, System.workReceiver, hstop, hreceiver, hread]
  | pulling =>
    refine .inl (hstep ?_)
    rcases hnext : s.intake.framer.next with ⟨pull, f⟩
    cases pull <;> simp [System.stepReceiver, System.workReceiver, hreceiver, hnext]
  | routing message =>
    exact .inl (hstep (by simp [System.stepReceiver, System.workReceiver, hreceiver]))
  | ending fault =>
    refine .inl (hstep ?_)
    cases hawaiting : s.intake.awaiting <;>
      simp [System.stepReceiver, System.workReceiver, hreceiver, hawaiting]
  | tearing teardown =>
    have htask : s.teardown? .receiver = some teardown := by
      rw [System.teardown?, hreceiver]
      rfl
    exact .inl (System.exists_step_of_teardown htask)
  | ended => exact absurd hreceiver hended

/-! ## 2. The parts -/

theorem framing_of_greeted {text : String} {n : Negotiated} (h : Exchanged handed s)
    (hfirst : handed.find? Inbound.greets = some text) (hn : negotiate s.own text = .ok n) :
    s.intake.framer.framing = n.base.framing := by
  cases h with
  | awaited hquiet =>
    rw [hquiet] at hfirst
    cases hfirst
  | cutOff _ hquiet =>
    rw [hquiet] at hfirst
    cases hfirst
  | greeted text' hfirst' _ _ hframing =>
    rw [hfirst'] at hfirst
    cases hfirst
    exact hframing n hn

theorem exchange_of_greeted {text : String} (h : Exchanged handed s)
    (hfirst : handed.find? Inbound.greets = some text) :
    s.exchange = some (negotiate s.own text) := by
  cases h with
  | awaited hquiet =>
    rw [hquiet] at hfirst
    cases hfirst
  | cutOff _ hquiet =>
    rw [hquiet] at hfirst
    cases hfirst
  | greeted text' hfirst' _ hexchange =>
    rw [hfirst'] at hfirst
    cases hfirst
    exact hexchange

/-- An exchange that has succeeded has done so on the first greeting. -/
theorem exists_greeting_of_exchange {n : Negotiated} (h : Exchanged handed s)
    (hexchange : s.exchange = some (.ok n)) :
    ∃ text, handed.find? Inbound.greets = some text ∧ negotiate s.own text = .ok n := by
  cases h with
  | awaited _ _ hnone =>
    rw [hnone] at hexchange
    cases hexchange
  | cutOff _ _ _ herror =>
    rw [herror] at hexchange
    cases hexchange
  | greeted text hfirst _ hnegotiated =>
    rw [hnegotiated] at hexchange
    exact ⟨text, hfirst, Option.some.inj hexchange⟩

/-- A session that is connected has established what its exchange came to. -/
theorem established_of_connected (h : Connection history s)
    (hresult : s.results.lookup 0 = some .connected) :
    ∃ n, s.established = some n ∧ s.exchange = some (.ok n) := by
  rcases h.of_result hresult with ⟨-, n, hestablished, hexchange, -⟩ | ⟨fault, hfailed, -⟩
  · exact ⟨n, hestablished, hexchange⟩
  · cases hfailed

/-- A session that is not connected is not open, and has never been. -/
theorem unopened_of_not_connected (h : Connection history s)
    (hresult : s.results.lookup 0 ≠ some .connected) : Unopened history s := by
  cases h with
  | unasked _ _ _ _ _ hunopened => exact hunopened
  | asking _ _ _ _ _ _ hunopened => exact hunopened
  | connected _ _ _ hconnected => exact absurd hconnected hresult
  | refused _ _ _ _ _ hunopened => exact hunopened

theorem failure_of_result {result : CallResult} (h : Connection history s)
    (hresult : s.results.lookup 0 = some result) (hne : result ≠ .connected) :
    s.phase = .closed ∧ ∃ fault, result = .failed fault ∧ Failure history s fault := by
  rcases h.of_result hresult with ⟨hconnected, -⟩ | ⟨fault, hfailed, hphase, hfailure⟩
  · exact absurd hconnected hne
  · exact ⟨hphase, fault, hfailed, hfailure⟩

/-- Connecting comes to what the call has found: it fails with the fault, or goes on to open the
    session. -/
theorem result_of_finds {result : CallResult} (h : Connection history s)
    (hresult : s.results.lookup 0 = some result) :
    (∃ fault, result = .failed fault ∧ history.Finds (some (.error fault))) ∨
      (result = .connected ∨ result = .failed .notConnected) ∧
        ∃ n, history.Finds (some (.ok n)) := by
  rcases h.of_result hresult with ⟨hconnected, n, -, -, hfinds⟩ | ⟨fault, rfl, -, hfailure⟩
  · exact .inr ⟨.inl hconnected, n, hfinds⟩
  · cases hfailure with
    | exchange hfinds => exact .inl ⟨_, rfl, hfinds⟩
    | overtaken _ hfinds => exact .inr ⟨.inr rfl, _, hfinds⟩

/-- What connecting has come to stays, in whatever way the run goes on. -/
theorem result_run {result : CallResult} (hrun : Run (.start config own link now) history s)
    (hlater : Run s behind t) (horderly : History.Orderly (history ++ behind))
    (hresult : s.results.lookup 0 = some result) : t.results.lookup 0 = some result := by
  induction hlater with
  | nil => exact hresult
  | snoc before hstep ih =>
    rw [← List.append_assoc] at horderly
    have hconnection := Connection.run (hrun.append before) horderly.front
    exact hconnection.result_perform hstep (ih horderly.front)

/-- An exchange that has succeeded stays as it is. -/
theorem exchange_run {n : Negotiated} (hrun : Run (.start config own link now) history s)
    (hlater : Run s behind t) (hexchange : s.exchange = some (.ok n)) :
    t.exchange = some (.ok n) := by
  induction hlater with
  | nil => exact hexchange
  | snoc before hstep ih => exact (Exchanged.run (hrun.append before)).exchange_perform hstep ih

theorem config_perform {move : Move} (h : s.perform move = some t) : t.config = s.config := by
  cases move with
  | step task =>
    cases task with
    | writer => rw [System.stepWriter_frame h]
    | receiver => rw [System.stepReceiver_frame h]
    | call number => rw [System.stepCall_frame h]
  | _ => rw [System.perform_frame h nofun]

theorem config_run (h : Run (.start config own link now) history s) : s.config = config := by
  induction h with
  | nil => rfl
  | snoc _ hstep ih => rw [config_perform hstep, ih]

/-! ## 3. Opening -/

/-- The first greeting that was negotiated, and what the session is from then on. -/
theorem success_of_run (hrun : Run (.start config own link now) history s)
    (horderly : history.Orderly) (hresult : s.results.lookup 0 = some .connected) :
    ∃ n frames frame rest later,
      GreetingAt own config.messageLimit history.reads.flatten history.handed n frames frame rest
        later ∧
      s.established = some n ∧ s.intake.framer.framing = n.base.framing ∧
      ∀ behind t, Run s behind t → History.Orderly (history ++ behind) →
        t.results.lookup 0 = some .connected ∧ t.established = some n ∧
          t.intake.framer.framing = n.base.framing := by
  -- what holds of every session that is connected and whose exchange came to `n`
  have hstate : ∀ {h u n}, Run (.start config own link now) h u → h.Orderly →
      u.results.lookup 0 = some .connected → u.exchange = some (.ok n) →
      u.established = some n ∧ u.intake.framer.framing = n.base.framing := by
    intro h u n hu horderly' hconnected hexchange
    obtain ⟨m, hestablished, hm⟩ := established_of_connected (.run hu horderly') hconnected
    obtain rfl : m = n := by
      rw [hexchange] at hm
      exact (Except.ok.inj (Option.some.inj hm)).symm
    obtain ⟨text, hfirst, hn⟩ := exists_greeting_of_exchange (.run hu) hexchange
    exact ⟨hestablished, framing_of_greeted (.run hu) hfirst hn⟩
  obtain ⟨n, hestablished, hexchange⟩ := established_of_connected (.run hrun horderly) hresult
  obtain ⟨text, hfirst, hn⟩ := exists_greeting_of_exchange (.run hrun) hexchange
  rw [(Follows.run hrun).1] at hn
  obtain ⟨hgreets, front, later, hhanded, hquiet⟩ := List.find?_eq_some_iff_append.mp hfirst
  have hquiet' : ∀ m ∈ front, Inbound.greets m = false := fun m hm => by simpa using hquiet m hm
  obtain ⟨frames, frame, rest, hat⟩ := (Follows.run hrun).greetingAt hhanded hquiet' hgreets hn
  refine ⟨n, frames, frame, rest, later, hat, hestablished,
    (hstate hrun horderly hresult hexchange).2, fun behind t hlater hboth => ?_⟩
  have hconnected := result_run hrun hlater hboth hresult
  exact ⟨hconnected,
    hstate (hrun.append hlater) hboth hconnected (exchange_run hrun hlater hexchange)⟩

/-- Connecting comes to what the call that connects found when it stopped waiting. -/
theorem verdict_of_run {u : System} {deadline : Duration} {result : CallResult}
    (hrun : Run (.start config own link now) history s) (horderly : history.Orderly)
    (hmem : (u, .step (.call 0)) ∈ history)
    (hwaits : u.calls.lookup 0 = some (.awaitGreeting deadline))
    (hresult : s.results.lookup 0 = some result) :
    (u.exchange = none → result = .failed (.capabilityExchange
        ("no greeting from peer within " ++ config.helloTimeout.render))) ∧
      (∀ fault, u.exchange = some (.error fault) → result = .failed fault) ∧
      (∀ n, u.exchange = some (.ok n) → result = .connected ∨ result = .failed .notConnected) := by
  have hconfig : u.config = config := by
    obtain ⟨before, behind, rfl⟩ := List.append_of_mem hmem
    exact config_run hrun.split.1
  rcases result_of_finds (.run hrun horderly) hresult with ⟨fault, rfl, hfinds⟩ | ⟨hgoes, n, hfinds⟩
  · have hverdict : u.verdict = .error fault := (Option.some.inj (hfinds u deadline hmem hwaits)).symm
    refine ⟨fun hnone => ?_, fun fault' herror => ?_, fun n hn => ?_⟩
    · rw [System.verdict, hnone, hconfig] at hverdict
      exact congrArg CallResult.failed (Except.error.inj hverdict).symm
    · rw [System.verdict, herror] at hverdict
      exact congrArg CallResult.failed (Except.error.inj hverdict).symm
    · rw [System.verdict, hn] at hverdict
      cases hverdict
  · have hverdict : u.verdict = .ok n := (Option.some.inj (hfinds u deadline hmem hwaits)).symm
    refine ⟨fun hnone => ?_, fun fault' herror => ?_, fun _ _ => hgoes⟩
    · rw [System.verdict, hnone] at hverdict
      cases hverdict
    · rw [System.verdict, herror] at hverdict
      cases hverdict

/-- **A session opens on a valid first greeting alone, and that greeting is final.** -/
theorem opens_on_first_greeting (hrun : Run (.start config own link now) history s)
    (horderly : history.Orderly) : Opening config own history s := by
  have hconnection := Connection.run hrun horderly
  have hexchanged := Exchanged.run hrun
  have hown : s.own = own := (Follows.run hrun).1
  exact {
    success := success_of_run hrun horderly
    refusal := by
      intro hrefused
      have hnot : ∀ n, s.exchange ≠ some (.ok n) := by
        intro n hn
        obtain ⟨text, hfirst, hok⟩ := exists_greeting_of_exchange hexchanged hn
        obtain ⟨fault, herror⟩ := hrefused text hfirst
        rw [hown, herror] at hok
        cases hok
      have hresult : s.results.lookup 0 ≠ some .connected := by
        intro hconnected
        obtain ⟨n, -, hn⟩ := established_of_connected hconnection hconnected
        exact hnot n hn
      have hunopened := unopened_of_not_connected hconnection hresult
      refine ⟨hunopened.before, ?_, fun result hr => ?_⟩
      · rcases hunopened.phase with hphase | hphase
        · rw [hphase]
          decide
        · rw [hphase]
          decide
      · obtain ⟨hphase, fault, rfl, hfailure⟩ :=
          failure_of_result hconnection hr fun heq => hresult (heq ▸ hr)
        cases hfailure with
        | exchange => exact ⟨hphase, _, rfl⟩
        | overtaken hn => exact absurd hn (hnot _)
    failure := by
      intro result hr hne
      obtain ⟨hphase, fault, rfl, hfailure⟩ := failure_of_result hconnection hr hne
      have hunopened := unopened_of_not_connected hconnection
        fun hconnected => hne (Option.some.inj (hr.symm.trans hconnected))
      refine ⟨hphase, hunopened.before, hunopened.established, ?_⟩
      cases hfailure with
      | exchange => exact .inl ⟨_, rfl⟩
      | overtaken hn _ hmem hstage hclosed =>
        obtain ⟨text, hfirst, hok⟩ := exists_greeting_of_exchange hexchanged hn
        exact .inr ⟨rfl, text, _, _, hfirst, hown ▸ hok, hmem, hstage, hclosed⟩
    verdict := fun _ _ hmem hwaits _ hr => verdict_of_run hrun horderly hmem hwaits hr
    unmoved := by
      refine ⟨fun m hm hquiet => ?_, fun hquiet => ?_⟩
      · have hnot : ¬ (s.intake.awaiting = true ∧ Inbound.greets m = true) :=
          fun hfirst => Bool.false_ne_true (hquiet.symm.trans hfirst.2)
        obtain ⟨hintake, hexchange, hpulling⟩ := Exchanged.route_of_not hnot
        refine ⟨s.route m, ?_, hpulling, hintake, hexchange⟩
        show s.stepReceiver = some _
        rw [stepReceiver_of_ne_reading (by simp [hm]), System.workReceiver, hm]
      · cases hexchanged with
        | awaited _ _ hnone => exact .inl hnone
        | cutOff fault _ _ herror => exact .inr ⟨fault, herror⟩
        | greeted text hfirst =>
          rw [hquiet] at hfirst
          cases hfirst
    decided := by
      refine ⟨fun text hfirst => hown ▸ exchange_of_greeted hexchanged hfirst, fun fault hf => ?_,
        fun hnone hstops => exists_step_of_receiver fun hended => ?_⟩
      · obtain ⟨t, ht⟩ | ⟨hreading, -⟩ := exists_step_of_receiver (s := s) (by simp [hf])
        · refine ⟨t, ht, ?_⟩
          obtain ⟨⟨teardown, htearing⟩, -⟩ := Exchanged.ending_cases hf ht
          cases hexchanged.perform ht with
          | awaited _ _ _ hreceiver => exact absurd htearing (hreceiver teardown)
          | cutOff _ _ _ herror => rw [herror]; rfl
          | greeted _ _ _ hnegotiated => rw [hnegotiated]; rfl
        · rw [hf] at hreading
          cases hreading
      · cases hexchanged with
        | awaited _ _ _ _ hstopped =>
          rw [hstopped hended] at hstops
          cases hstops
        | cutOff _ _ _ herror =>
          rw [herror] at hnone
          cases hnone
        | greeted _ _ _ hnegotiated =>
          rw [hnegotiated] at hnone
          cases hnone
    returns := by
      refine ⟨?_, fun hbegun hopen => ?_⟩
      · cases hconnection with
        | unasked _ _ _ hsteps => omega
        | asking stage _ _ _ hsteps =>
          have := Connection.steps_le stage
          omega
        | connected _ _ _ _ hsteps => exact hsteps
        | refused _ _ _ _ hsteps => exact hsteps
      · cases hconnection with
        | unasked hnone => exact absurd hnone hbegun
        | asking stage _ hcalls _ _ hasks =>
          refine (exists_step_of_asks hcalls hasks).imp id ?_
          rintro ⟨deadline, rfl, hnone, hdue⟩
          exact ⟨deadline, hcalls, hnone, hdue, config_run hrun ▸ hasks⟩
        | connected _ _ _ hconnected =>
          rw [hconnected] at hopen
          cases hopen
        | refused _ _ _ hresults =>
          rw [hresults] at hopen
          cases hopen }

/-- A message that is no greeting, the greeting of a peer of version 1.1, and another greeting
    behind it that announces less; and a greeting that is handed on when the time limit has
    passed and the call that connects has looked. -/
theorem opens_on_first_greeting_repeated :
    (∃ (config : Config) (own : CapabilitySet) (history : History) (s : System),
      Run (.start config own .fresh ⟨0⟩) history s ∧ history.Orderly ∧
      s.results.lookup 0 = some .connected ∧ s.established.map (·.base) = some .v1_1 ∧
      history.handed = ["<note/>",
        "<hello><capabilities><capability>:base:1.1</capability></capabilities></hello>",
        "<hello/>"] ∧
      Opening config own history s) ∧
    ∃ (config : Config) (own : CapabilitySet) (history : History) (s : System),
      Run (.start config own .fresh ⟨0⟩) history s ∧ history.Orderly ∧
      (∃ n, s.exchange = some (.ok n)) ∧ s.results.lookup 0 =
        some (.failed (.capabilityExchange "no greeting from peer within 1ns")) ∧
      Opening config own history s := by
  have hrun : ∃ r ∈ (System.start ⟨[], ⟨1⟩, ⟨1⟩, none, 512, 512, 1⟩
      ⟨[⟨"urn:ietf:params:netconf:base:1.1", .empty⟩], by decide⟩ .fresh ⟨0⟩).trace
      [.begin .greet, .step (.call 0),
        .link (Link.fresh.arrive (Framing.endOfMessage.encode "<note/>" ++
          Framing.endOfMessage.encode
            "<hello><capabilities><capability>:base:1.1</capability></capabilities></hello>" ++
          Framing.chunked.encode "<hello/>")),
        .step .receiver, .step .receiver, .step .receiver, .step .receiver, .step .receiver,
        .step .receiver, .step (.call 0), .step .receiver, .step (.call 0)],
      History.Orderly r.1 ∧ r.2.results.lookup 0 = some .connected ∧
      r.2.established.map (·.base) = some .v1_1 ∧ History.handed r.1 = ["<note/>",
        "<hello><capabilities><capability>:base:1.1</capability></capabilities></hello>",
        "<hello/>"] := by
    decide +kernel
  have hlate : ∃ r ∈ (System.start ⟨[], ⟨1⟩, ⟨1⟩, none, 512, 512, 1⟩
      ⟨[⟨"urn:ietf:params:netconf:base:1.1", .empty⟩], by decide⟩ .fresh ⟨0⟩).trace
      [.begin .greet, .step (.call 0), .elapse ⟨1⟩, .step (.call 0),
        .link (Link.fresh.arrive (Framing.endOfMessage.encode
          "<hello><capabilities><capability>:base:1.1</capability></capabilities></hello>")),
        .step .receiver, .step .receiver, .step .receiver, .step (.call 0), .step (.call 0),
        .step (.call 0)],
      History.Orderly r.1 ∧ (∃ outcome ∈ r.2.exchange, outcome.isOk = true) ∧
      r.2.results.lookup 0 =
        some (.failed (.capabilityExchange "no greeting from peer within 1ns")) := by
    decide +kernel
  obtain ⟨⟨history, s⟩, htrace, horderly, hresult, hbase, hhanded⟩ := hrun
  obtain ⟨⟨later, t⟩, hbehind, hin, ⟨outcome, houtcome, hok⟩, hfailed⟩ := hlate
  have hwhole := System.run_of_trace htrace
  have hsecond := System.run_of_trace hbehind
  refine ⟨⟨_, _, history, s, hwhole, horderly, hresult, hbase, hhanded,
    opens_on_first_greeting hwhole horderly⟩, _, _, later, t, hsecond, hin, ?_, hfailed,
    opens_on_first_greeting hsecond hin⟩
  cases outcome with
  | ok n => exact ⟨n, houtcome⟩
  | error fault => cases hok

end NetconfClient.Session
