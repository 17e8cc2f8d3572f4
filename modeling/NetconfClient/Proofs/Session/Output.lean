/-
  NetconfClient/Proofs/Session/Output.lean
  ========================================
  **On the link stand the accepted messages, and nothing else.**

  At every moment a session has written the front of one stream: its own
  greeting, and behind it the messages of all of its calls, in the order in which
  they were accepted and in the framing that was agreed on.  Closing a session
  writes what was accepted before and then shuts the link down; a fault of the
  link ends the writing where it is, closes the session and fails what is
  outstanding.
-/
import NetconfClient.Proofs.Session.Failing
import NetconfClient.Proofs.Session.Opening
import NetconfClient.Proofs.Session.Taking

namespace NetconfClient.Session

open Text Framing

/-! ## 1. What is sent -/

/-- The stream of a session: its own greeting, and the messages that have been accepted. -/
def History.sent (history : History) (s : System) : List UInt8 :=
  Framing.endOfMessage.encode s.hello ++ history.accepted.flatMap s.framing.encode

/-- What has entered the queue of a session that is used in order. -/
structure Sent (history : History) (s : System) : Prop where
  /-- No message is accepted before the session is open. -/
  unconnected : s.results.lookup 0 ≠ some .connected → history.accepted = []
  greeted : s.results.lookup 0 = some .connected → history.stepsOf 0 ≠ 0
  entered : history.entered.flatMap Outgoing.octets =
    (if history.stepsOf 0 = 0 then [] else Framing.endOfMessage.encode s.hello) ++
      history.accepted.flatMap s.framing.encode

namespace Sent

variable {history : History} {s t : System} {move : Move}

/-- What a call that does not connect puts into the queue is its message or no octets. -/
theorem octets_entering {stage : Stage} (h : stage.connects = false) :
    (s.entering stage).toList.flatMap Outgoing.octets =
      (s.accepting stage).toList.flatMap s.framing.encode := by
  cases stage
  case greet => cases h
  case enqueue ticket purpose message =>
    rw [System.entering, System.accepting]
    split <;> simp [Outgoing.octets]
  case flush deadline =>
    rw [System.entering]
    split <;> rfl
  all_goals rfl

theorem framing_of_established (h : t.established = s.established) : t.framing = s.framing := by
  rw [System.framing, h, System.framing]

theorem hello_perform (h : s.perform move = some t) : t.hello = s.hello := by
  rw [System.hello, System.own_perform h, System.hello]

/-- A move that puts nothing into the queue and concludes no call. -/
theorem aside (h : Sent history s) (hstep : s.perform move = some t)
    (hne : ∀ number, move ≠ .step (.call number)) (hresults : t.results = s.results)
    (hestablished : t.established = s.established) : Sent (history ++ [(s, move)]) t := by
  have hnone : s.entered? move = none ∧ s.accepted? move = none := by
    cases move with
    | step task =>
      cases task with
      | call number => exact absurd rfl (hne number)
      | _ => exact ⟨rfl, rfl⟩
    | _ => exact ⟨rfl, rfl⟩
  have hsteps := Connection.stepsOf_of_ne history s (hne 0)
  refine ⟨?_, ?_, ?_⟩
  · rw [hresults, History.accepted_snoc, hnone.2, Option.toList_none, List.append_nil]
    exact h.unconnected
  · rw [hresults, hsteps]
    exact h.greeted
  · rw [History.entered_snoc, History.accepted_snoc, hnone.1, hnone.2, Option.toList_none,
      Option.toList_none, List.append_nil, List.append_nil, hsteps, hello_perform hstep,
      framing_of_established hestablished]
    exact h.entered

/-- A step of a call. -/
theorem call {number : Nat} (h : Sent history s) (hconnection : Connection history s)
    (hstep : s.perform (.step (.call number)) = some t) :
    Sent (history ++ [(s, .step (.call number))]) t := by
  have hresult : s.results.lookup 0 = some .connected → t.results.lookup 0 = some .connected :=
    hconnection.result_perform hstep
  obtain ⟨stage, u, next, hstage, hcall, ht⟩ := System.stepCall_cases hstep
  have hentered : s.entered? (.step (.call number)) = s.entering stage := by
    rw [System.entered?, hstage, Option.bind_some]
  have haccepted : s.accepted? (.step (.call number)) = s.accepting stage := by
    rw [System.accepted?, hstage, Option.bind_some]
  have hhello := hello_perform hstep
  rcases hconnection.of_lookup hstage with ⟨rfl, hresults, hsteps, hasks⟩ |
    ⟨hnumber, hconnects, hconnected⟩
  · have hnone : history.accepted = [] := h.unconnected (by simp [hresults])
    have hnone' : History.accepted (history ++ [(s, .step (.call 0))]) = [] := by
      rw [History.accepted_snoc, haccepted, hnone]
      cases stage <;> first | rfl | exact absurd hasks id
    have hmore : History.stepsOf (history ++ [(s, .step (.call 0))]) 0 ≠ 0 := by
      rw [History.stepsOf_snoc, if_pos rfl]
      exact Nat.succ_ne_zero _
    refine ⟨fun _ => hnone', fun _ => hmore, ?_⟩
    have hbefore := h.entered
    rw [hnone, List.flatMap_nil, List.append_nil, hsteps] at hbefore
    rw [hnone', if_neg hmore, hhello, History.entered_snoc, hentered, List.flatMap_append, hbefore,
      List.flatMap_nil, List.append_nil]
    cases stage
    case greet =>
      rw [System.entering, System.Untouched.queue hasks]
      simp [Stage.steps, Outgoing.octets]
    case refuseTeardown teardown fault => cases teardown <;> exact List.append_nil _
    case awaitGreeting | refuse | establish => exact List.append_nil _
    all_goals exact absurd hasks id
  · have hne : Move.step (.call number) ≠ .step (.call 0) := by simpa using hnumber
    have hsteps := Connection.stepsOf_of_ne history s hne
    have hestablished : t.established = s.established := by
      rw [← System.established_stepStage hcall (by rintro n rfl; cases hconnects), ht]
      cases next <;> rfl
    refine ⟨fun hnot => absurd (hresult hconnected) hnot, fun _ => ?_, ?_⟩
    · rw [hsteps]
      exact h.greeted hconnected
    · rw [History.entered_snoc, History.accepted_snoc, List.flatMap_append, List.flatMap_append,
        hentered, haccepted, hsteps, hhello, framing_of_established hestablished,
        octets_entering hconnects, h.entered, List.append_assoc]

theorem perform (h : Sent history s) (hconnection : Connection history s)
    (hstep : s.perform move = some t) : Sent (history ++ [(s, move)]) t := by
  cases move with
  | step task =>
    cases task with
    | call number => exact h.call hconnection hstep
    | writer =>
      have hframe := System.stepWriter_frame hstep
      exact h.aside hstep (by simp) (by rw [hframe]) (by rw [hframe])
    | receiver =>
      have hframe := System.stepReceiver_frame hstep
      exact h.aside hstep (by simp) (by rw [hframe]) (by rw [hframe])
  | _ =>
    have hframe := System.perform_frame hstep nofun
    exact h.aside hstep (by simp) (by rw [hframe]) (by rw [hframe])

theorem run {config : Config} {own : CapabilitySet} {link : Link} {now : Duration}
    (h : Run (.start config own link now) history s) (horderly : history.Orderly) :
    Sent history s := by
  induction h with
  | nil => exact ⟨fun _ => rfl, fun hresult => (by cases hresult), rfl⟩
  | snoc before hstep ih =>
    exact (ih horderly.front).perform (.run before horderly.front) hstep

end Sent

/-! ## 2. Closing -/

variable {config : Config} {own : CapabilitySet} {link : Link} {now : Duration}
  {history before behind : History} {s t u : System} {move : Move} {number : Nat}

/-- A call has found the writer at its end and goes on. -/
def History.Joins (history : History) (number : Nat) : Prop :=
  ∃ front x back deadline, history = front ++ (x, .step (.call number)) :: back ∧
    x.calls.lookup number = some (.joinWriter deadline) ∧ x.writer = .ended

/-- Where a call is that has begun to close, as long as it does not stop the writer. -/
inductive Joining (history : History) (s : System) (number : Nat) : Prop where
  | flush (deadline : Duration) (h : s.calls.lookup number = some (.flush deadline))
  | join (deadline : Duration) (h : s.calls.lookup number = some (.joinWriter deadline))
  | stop (h : s.calls.lookup number = some .stopWriter)
  | joined (h : history.Joins number)

theorem Joining.perform (h : Joining history s number) (hs : s.Numbered)
    (hnever : s.calls.lookup number ≠ some .stopWriter) (hstep : s.perform move = some t) :
    Joining (history ++ [(s, move)]) t number := by
  have hlookup := System.lookup_perform hs hstep number
  cases h with
  | stop h => exact absurd h hnever
  | joined h =>
    obtain ⟨front, x, back, deadline, rfl, hx⟩ := h
    exact .joined ⟨front, x, back ++ [(s, move)], deadline, by simp, hx⟩
  | flush deadline h =>
    rcases hlookup with ⟨-, hsame⟩ | ⟨stage, u, next, -, hstage, hcall, hnext⟩ |
      ⟨_, _, _, _, hnone, _⟩
    · exact .flush deadline (hsame.trans h)
    · cases hstage.symm.trans h
      simp only [System.stepStage] at hcall
      repeat' split at hcall
      all_goals cases hcall
      · exact .join deadline hnext
      · exact .join deadline hnext
      · exact .stop hnext
    · cases hnone.symm.trans h
  | join deadline h =>
    rcases hlookup with ⟨-, hsame⟩ | ⟨stage, u, next, rfl, hstage, hcall, hnext⟩ |
      ⟨_, _, _, _, hnone, _⟩
    · exact .join deadline (hsame.trans h)
    · cases hstage.symm.trans h
      simp only [System.stepStage] at hcall
      split at hcall
      · next hended => exact .joined ⟨history, s, [], deadline, rfl, h, hended⟩
      · split at hcall
        · cases hcall
          exact .stop hnext
        · cases hcall
    · cases hnone.symm.trans h

theorem Joining.run (h : Run u behind s) (hu : u.Numbered)
    (hstage : ∃ deadline, u.calls.lookup number = some (.flush deadline))
    (hnever : ∀ e ∈ behind, e.1.calls.lookup number ≠ some .stopWriter) :
    s.Numbered ∧ Joining behind s number := by
  induction h with
  | nil =>
    obtain ⟨deadline, h⟩ := hstage
    exact ⟨hu, .flush deadline h⟩
  | @snoc later v w move before hstep ih =>
    obtain ⟨hv, hjoining⟩ := ih fun e he => hnever e (List.mem_append_left _ he)
    exact ⟨hv.perform hstep,
      hjoining.perform hv (hnever _ (List.mem_append_right _ List.mem_cons_self)) hstep⟩

/-- What stands in front of a mark that it does not hold lies in front of the mark. -/
theorem prefix_of_notMem {α : Type} {l rest done behind : List α} {mark : α} (hl : mark ∉ l)
    (h : l ++ rest = done ++ mark :: behind) : l <+: done := by
  have hboth : l <+: done ++ mark :: behind := ⟨rest, h⟩
  rcases List.prefix_or_prefix_of_prefix hboth (List.prefix_append done _) with hle | ⟨more, rfl⟩
  · exact hle
  · rw [List.append_assoc, List.append_cancel_left_eq] at h
    cases more with
    | nil => simp
    | cons x more =>
      obtain rfl : x = mark := (List.cons.inj h).1
      exact absurd (List.mem_append_right _ List.mem_cons_self) hl

/-- A call that takes a session with it finds it connected. -/
theorem connected_of_takes {stage : Stage} (h : Connection history s)
    (hstage : s.calls.lookup number = some stage) (htakes : stage.takes = true) :
    s.results.lookup 0 = some .connected := by
  rcases h.of_lookup hstage with ⟨-, -, -, hasks⟩ | ⟨-, -, hconnected⟩
  · cases stage
    case greet | awaitGreeting | refuse | refuseTeardown | establish => cases htakes
    all_goals exact absurd hasks id
  · exact hconnected

/-- What has been agreed on stays, and with it the framing of messages. -/
theorem framing_run (hrun : Run (.start config own link now) before u) (hlater : Run u behind s)
    (horderly : History.Orderly (before ++ behind))
    (hconnected : u.results.lookup 0 = some .connected) : s.framing = u.framing := by
  have hs := hrun.append hlater
  obtain ⟨n, hn, hexchange⟩ := established_of_connected (.run hrun horderly.front) hconnected
  obtain ⟨m, hm, hexchange'⟩ := established_of_connected (.run hs horderly)
    (result_run hrun hlater horderly hconnected)
  have heq := hexchange'.symm.trans (exchange_run hrun hlater hexchange)
  cases heq
  exact Sent.framing_of_established (hm.trans hn.symm)

theorem hello_run (h : Run u behind s) : s.hello = u.hello := by
  induction h with
  | nil => rfl
  | snoc _ hstep ih => exact (Sent.hello_perform hstep).trans ih

/-- A writer that has neither been told to stop nor lost its senders never was. -/
theorem uncut_run (h : Run u behind s) (hs : ¬ (s.writerStops = true ∨ s.queue.detached = true)) :
    ¬ (u.writerStops = true ∨ u.queue.detached = true) := by
  induction h with
  | nil => exact hs
  | snoc _ hstep ih =>
    exact ih fun hcut =>
      hs (hcut.imp (System.stops_perform hstep).2 (System.detached_perform hstep))

/-- A call that waits for the writer has not told it to stop, and nobody else has. -/
theorem uncut_of_join {deadline : Duration} (hrun : Run (.start config own link now) history s)
    (horderly : history.Orderly) (hstage : s.calls.lookup number = some (.joinWriter deadline)) :
    ¬ (s.writerStops = true ∨ s.queue.detached = true) := by
  intro hcut
  rcases (Taking.run hrun horderly).cut hcut with ⟨fault, hfailed⟩ | ⟨-, hclosing⟩
  · rw [connected_of_takes (.run hrun horderly) hstage rfl] at hfailed
    cases hfailed
  · exact Nat.not_succ_le_self 1 (hclosing number _ hstage rfl)

/-- **A call that has joined the writer finds everything written that was queued when it began
    to close, and the link shut down behind that.** -/
theorem exists_shutdown (hrun : Run (.start config own link now) (before ++ (u, move) :: behind) s)
    (horderly : History.Orderly (before ++ (u, move) :: behind))
    (hstage : u.calls.lookup number = some .close) (hjoins : History.Joins behind number)
    (hfault : ∀ e ∈ before ++ (u, move) :: behind, e.1.writeFault? e.2 = none) :
    ∃ (early : History) (v : System) (late : History),
      before ++ (u, move) :: behind = early ++ (v, .step .writer) :: late ∧
      v.writer = .shutting ∧ v.writerStops = false ∧
      before.entered.flatMap Outgoing.octets <+: early.written := by
  obtain ⟨front, x, back, deadline, rfl, hjoin, hended⟩ := hjoins
  have hwhole : before ++ (u, move) :: (front ++ (x, .step (.call number)) :: back) =
      (before ++ (u, move) :: front) ++ (x, .step (.call number)) :: back := by
    simp
  have hx : Run (.start config own link now) (before ++ (u, move) :: front) x :=
    (hwhole ▸ hrun).split.1
  have horderly' : History.Orderly (before ++ (u, move) :: front) := (hwhole ▸ horderly).front
  have hwritten := Written.run hx
  rw [hended] at hwritten
  cases hwritten with
  | ceased _ early late v hhistory hleaves hquiet =>
    obtain ⟨hv, v', hstep, hlate⟩ := (hhistory ▸ hx).split
    have huncut := uncut_run ((Run.single hstep).append hlate) (uncut_of_join hx horderly' hjoin)
    -- it has neither been told to stop nor failed
    obtain ⟨hshutting, hstops⟩ : v.writer = .shutting ∧ v.writerStops = false := by
      rcases hleaves.2 with hstops | hshutting | hfailed
      · exact absurd (.inl hstops) huncut
      · exact hshutting
      · have hmem : (v, Move.step .writer) ∈ before ++ (u, move) :: front := by
          rw [hhistory]
          exact List.mem_append_right _ List.mem_cons_self
        have hnone := hfault (v, .step .writer) (hwhole ▸ List.mem_append_left _ hmem)
        rw [hnone] at hfailed
        cases hfailed
    refine ⟨early, v, late ++ (x, .step (.call number)) :: back, ?_, hshutting, hstops, ?_⟩
    · rw [hwhole, hhistory]
      simp
    · have hbefore := Written.run hv
      rw [hshutting] at hbefore
      cases hbefore with
      | ceased hover => cases hover
      | shutting done rest hdone hentered hmark hdone' =>
        obtain ⟨rest, rfl⟩ := hmark.resolve_left fun hdetached => huncut (.inr hdetached)
        -- the order to shut down is behind everything that was queued before
        have hunmarked : Outgoing.shutdown ∉ before.entered := fun hin =>
          Nat.not_succ_le_zero 0 <|
            ((Taking.run hrun.split.1 horderly.front).ordered hin).2 number _ hstage rfl
        have hle : before.entered <+: done := by
          have hboth := congrArg History.entered hhistory
          rw [History.entered_append, History.entered_append, hentered, List.append_assoc,
            List.cons_append] at hboth
          exact prefix_of_notMem hunmarked hboth
        obtain ⟨more, rfl⟩ := hle
        rw [hdone', List.flatMap_append]
        exact List.prefix_append _ _

/-- The step with which the writer shuts the link down. -/
theorem shut_of_perform (h : u.perform (.step .writer) = some t) (hwriter : u.writer = .shutting)
    (hstops : u.writerStops = false) : t = { u.endWriter with link := u.link.shutdown } := by
  have hcases := System.writerStep h
  rw [hwriter] at hcases
  cases hcases with
  | stop hstops' =>
    rw [hstops] at hstops'
    cases hstops'
  | shut _ ht => exact ht

/-- A call that has closed the session has joined the writer, unless it has told it to stop. -/
theorem joins_of_close
    (hrun : Run (.start config own link now) (before ++ (u, .step (.call number)) :: behind) s)
    (hstage : u.calls.lookup number = some .close) (hphase : u.phase ≠ .closed)
    (hnever : ∀ e ∈ behind, e.1.calls.lookup number ≠ some .stopWriter)
    (hreturned : s.calls.lookup number = none) : History.Joins behind number := by
  obtain ⟨hbefore, v, hv, hbehind⟩ := hrun.split
  have hflush : ∃ deadline, v.calls.lookup number = some (.flush deadline) := by
    obtain ⟨stage, w, next, hstage', hcall, -, -, hself, -⟩ := System.stage?_stepCall hv
    obtain rfl : stage = .close := Option.some.inj (hstage'.symm.trans hstage)
    simp only [System.stepStage, if_neg hphase] at hcall
    cases hcall
    exact ⟨_, hself⟩
  cases (Joining.run hbehind (hbefore.snoc hv).numbered_of_start hflush hnever).2 with
  | flush _ h => cases hreturned.symm.trans h
  | join _ h => cases hreturned.symm.trans h
  | stop h => cases hreturned.symm.trans h
  | joined h => exact h

/-! ## 3. The output of a session -/

/-- What a session that is used in order has written, in any order of moves. -/
structure Output (history : History) (s : System) : Prop where
  /-- What is on the link stays there, and only the writer adds to it. -/
  added : ∀ task t, s.perform (.step task) = some t →
    t.link.written = s.link.written ++ s.wrote (.step task) ∧
      (task ≠ .writer → s.wrote (.step task) = [])
  /-- What a call puts into the queue goes behind what is there. -/
  queued : ∀ number t, s.perform (.step (.call number)) = some t →
    t.queue.items = s.queue.items ++ (s.entered? (.step (.call number))).toList
  /-- The octets that have been written are the front of the stream of the session. -/
  ordered : history.written <+: history.sent s
  /-- Messages are accepted once greetings have been exchanged, and in the framing that was
      agreed on. -/
  framed : history.accepted ≠ [] →
    ∃ n, s.exchange = some (.ok n) ∧ s.framing = n.base.framing
  /-- If a call begins to close the session while it is not closed, does not give up waiting
      for the writer and no write fails, then once it has returned the link has been shut down
      behind everything that was accepted before, and nothing is written any more. -/
  flushed : ∀ (before : History) (u : System) (behind : History) (number : Nat),
    history = before ++ (u, .step (.call number)) :: behind →
    u.calls.lookup number = some .close → u.phase ≠ .closed →
    (∀ e ∈ history, e.1.writeFault? e.2 = none) →
    (∀ e ∈ behind, e.1.calls.lookup number ≠ some .stopWriter) →
    s.calls.lookup number = none →
    ∃ (early : History) (v w : System) (late : History),
      history = early ++ (v, .step .writer) :: late ∧
      v.perform (.step .writer) = some w ∧ v.writer = .shutting ∧ w.link = v.link.shutdown ∧
      before.sent s <+: early.written ∧ History.written ((v, .step .writer) :: late) = []
  /-- Behind a write that has failed nothing is written, and the writer goes on to close the
      session and to fail what is outstanding, without waiting for anything. -/
  broken : ∀ (before : History) (u : System) (behind : History) (text : String),
    history = before ++ (u, .step .writer) :: behind →
    u.writeFault? (.step .writer) = some text →
    History.written ((u, .step .writer) :: behind) = [] ∧ Failing text history s ∧
      (∀ fault, s.writer = .tearing (.close fault) →
        ∃ t, s.perform (.step .writer) = some t ∧ t.phase = .closed) ∧
      (∀ fault, s.writer = .tearing (.fail fault) →
        ∃ t, s.perform (.step .writer) = some t ∧ t.writer = .ended)

/-- **On the link stand the accepted messages in the order of their acceptance, and nothing
    else.** -/
theorem writes_accepted (hrun : Run (.start config own link now) history s)
    (horderly : history.Orderly) : Output history s := by
  have hsent := Sent.run hrun horderly
  exact {
    added := fun task t hstep =>
      ⟨System.written_step hstep, fun hne => System.wrote_of_ne hstep (by simpa using hne)⟩
    queued := fun number t hstep => System.items_stepCall hstep
    ordered := by
      refine (Written.prefix_run hrun).trans ?_
      rw [hsent.entered, History.sent]
      split
      · next hnone =>
        have hunconnected := hsent.unconnected fun hconnected => hsent.greeted hconnected hnone
        rw [hunconnected]
        exact List.nil_prefix
      · exact List.prefix_refl _
    framed := by
      intro hsome
      have hconnected : s.results.lookup 0 = some .connected := by
        by_contra hnot
        exact hsome (hsent.unconnected hnot)
      obtain ⟨n, hestablished, hexchange⟩ :=
        established_of_connected (.run hrun horderly) hconnected
      exact ⟨n, hexchange, by rw [System.framing, hestablished]⟩
    flushed := by
      rintro before u behind number rfl hstage hphase hfault hnever hreturned
      have hjoins := joins_of_close hrun hstage hphase hnever hreturned
      obtain ⟨early, x, late, hhistory, hshutting, hstops, hwritten⟩ :=
        exists_shutdown hrun horderly hstage hjoins hfault
      obtain ⟨-, w, hstep, hlate⟩ := (hhistory ▸ hrun).split
      have hw := shut_of_perform hstep hshutting hstops
      refine ⟨early, x, w, late, hhistory, hstep, hshutting, by rw [hw], ?_, ?_⟩
      · obtain ⟨hbefore, v, hv, hbehind⟩ := hrun.split
        have hafter := (Run.single hv).append hbehind
        have hconnected := connected_of_takes (.run hbefore horderly.front) hstage rfl
        have hbefore' := Sent.run hbefore horderly.front
        rw [hbefore'.entered, if_neg (hbefore'.greeted hconnected),
          ← framing_run hbefore hafter horderly hconnected, ← hello_run hafter] at hwritten
        exact hwritten
      · exact System.quiet_behind hstep (by rw [hw]; rfl) (by rw [hw]; rfl) hlate
    broken := by
      rintro before u behind text rfl hfault
      obtain ⟨-, v, hv, hbehind⟩ := hrun.split
      have hv' : v = { u with writer := .tearing (.close (.io text)) } :=
        Option.some.inj (hv.symm.trans (Failing.stepWriter_of_writeFault? hfault))
      exact ⟨System.quiet_behind hv (by rw [hv']) (by rw [hv']; rfl) hbehind,
        Failing.run hrun hfault, fun fault => Failing.exists_closed,
        fun fault => Failing.exists_ended⟩ }

/-- Two calls send at once and the session is closed behind them; and in another run the link
    fails in the middle of the first message, while a request is outstanding. -/
theorem writes_accepted_closed_or_broken :
    (∃ (config : Config) (own : CapabilitySet) (history : History) (s : System),
      Run (.start config own .fresh ⟨0⟩) history s ∧ history.Orderly ∧
      (∃ e ∈ history, e.2 = .step (.call 3) ∧ e.1.calls.lookup 3 = some .close ∧
        e.1.phase ≠ .closed ∧ e.1.queue.items.length = 2) ∧
      (∀ e ∈ history, e.1.writeFault? e.2 = none ∧ e.1.calls.lookup 3 ≠ some .stopWriter) ∧
      s.calls = [] ∧ history.accepted = ["<b/>", "<a/>"] ∧ history.written = history.sent s ∧
      Output history s) ∧
    ∃ (config : Config) (own : CapabilitySet) (history : History) (s : System),
      Run (.start config own .fresh ⟨0⟩) history s ∧ history.Orderly ∧
      (∃ e ∈ history, e.2 = .step .writer ∧ e.1.writeFault? e.2 = some "broken pipe") ∧
      history.accepted = ["<b/>", "<a/>"] ∧
      history.written = Framing.endOfMessage.encode s.hello ++ [60, 98] ∧
      s.registry.outcome? 0 = some (.error (.transportClosed "broken pipe")) ∧
      Output history s := by
  have hclosed : ∃ r ∈ (System.start ⟨[], ⟨5⟩, ⟨5⟩, none, 512, 512, 4⟩
      ⟨[⟨"urn:ietf:params:netconf:base:1.0", .empty⟩], by decide⟩ .fresh ⟨0⟩).trace
      (System.opening ++ [.begin (.ifOpen (.request "1") "<a/>"), .begin (.ifOpen .plain "<b/>"),
        .step (.call 1), .step (.call 2), .step (.call 1), .step (.call 2), .step .writer,
        .step (.call 1), .step (.call 1), .step .writer, .step .writer, .begin .close,
        .step (.call 3), .step .writer, .step (.call 3), .step .writer, .step .writer,
        .step .writer, .step .writer, .step .writer, .step .writer, .step .writer,
        .step (.call 3), .elapse ⟨9⟩, .step (.call 3), .step (.call 3), .step (.call 3),
        .step (.call 3), .step (.call 3), .step (.call 3), .step (.call 3)]),
      History.Orderly r.1 ∧
      (∃ e ∈ r.1, e.2 = .step (.call 3) ∧ e.1.calls.lookup 3 = some .close ∧
        e.1.phase ≠ .closed ∧ e.1.queue.items.length = 2) ∧
      (∀ e ∈ r.1, e.1.writeFault? e.2 = none ∧ e.1.calls.lookup 3 ≠ some .stopWriter) ∧
      r.2.calls = [] ∧ History.accepted r.1 = ["<b/>", "<a/>"] ∧
      History.written r.1 = History.sent r.1 r.2 := by
    decide +kernel
  have hbroken : ∃ r ∈ (System.start ⟨[], ⟨5⟩, ⟨5⟩, none, 512, 512, 4⟩
      ⟨[⟨"urn:ietf:params:netconf:base:1.0", .empty⟩], by decide⟩ .fresh ⟨0⟩).trace
      (System.opening ++ [.begin (.ifOpen (.request "1") "<a/>"), .begin (.ifOpen .plain "<b/>"),
        .step (.call 1), .step (.call 2), .step (.call 1), .step (.call 2), .step (.call 1),
        .step (.call 1), .step .writer, .step .writer, .step .writer, .step .writer,
        .link { Link.fresh with window := some 2 }, .step .writer,
        .link { Link.fresh with writeFault := some "broken pipe" }, .step .writer, .step .writer,
        .step .writer]),
      History.Orderly r.1 ∧
      (∃ e ∈ r.1, e.2 = .step .writer ∧ e.1.writeFault? e.2 = some "broken pipe") ∧
      History.accepted r.1 = ["<b/>", "<a/>"] ∧
      History.written r.1 = Framing.endOfMessage.encode r.2.hello ++ [60, 98] ∧
      r.2.registry.outcome? 0 = some (.error (.transportClosed "broken pipe")) := by
    decide +kernel
  obtain ⟨⟨history, s⟩, htrace, horderly, hcloses, hnever, hcalls, haccepted, hwritten⟩ := hclosed
  obtain ⟨⟨history', s'⟩, htrace', horderly', hfault, haccepted', hwritten', houtcome⟩ := hbroken
  have hrun := System.run_of_trace htrace
  have hrun' := System.run_of_trace htrace'
  exact ⟨⟨_, _, history, s, hrun, horderly, hcloses, hnever, hcalls, haccepted, hwritten,
      writes_accepted hrun horderly⟩,
    _, _, history', s', hrun', horderly', hfault, haccepted', hwritten', houtcome,
    writes_accepted hrun' horderly'⟩

end NetconfClient.Session
