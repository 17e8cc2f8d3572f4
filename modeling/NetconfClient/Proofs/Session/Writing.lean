/-
  NetconfClient/Proofs/Session/Writing.lean
  =========================================
  **What goes into the queue comes out on the link, in the same order.**

  The octets that the writer has written and the items that have entered the
  queue are read off the history.  Between them lie the rest of the message that
  the writer is at and what is still queued, and `Written` says so at every
  place that the writer can be at.  Once it has come to a teardown or to its end
  it writes nothing more.
-/
import NetconfClient.Proofs.Session.Teardown

namespace NetconfClient.Session

open Text

/-! ## 1. What is written and what is queued -/

/-- The octets that an item of the queue stands for. -/
def Outgoing.octets : Outgoing → List UInt8
  | message octets => octets
  | shutdown => []

namespace System

/-- The octets that the step of a task adds to what has been written on the link. -/
def wrote (s : System) (move : Move) : List UInt8 :=
  match move, s.perform move with
  | .step _, some t => t.link.written.drop s.link.written.length
  | _, _ => []

/-- Whether the queue takes the next item of a call. -/
def accepts (s : System) : Bool :=
  !s.queue.closed && decide (s.queue.items.length < s.config.queueDepth)

/-- What a step of a call puts into the queue: the own greeting, a message in the framing of
    the session, or the order to shut down. -/
def entering (s : System) : Stage → Option Outgoing
  | .greet =>
    if s.queue.closed then none else some (.message (Framing.endOfMessage.encode s.hello))
  | .enqueue _ _ message =>
    if s.accepts then some (.message (s.framing.encode message)) else none
  | .flush _ => if s.accepts then some .shutdown else none
  | _ => none

/-- The message of a call that a step at a stage puts into the queue. -/
def accepting (s : System) : Stage → Option String
  | .enqueue _ _ message => if s.accepts then some message else none
  | _ => none

/-- What enters the queue with a move. -/
def entered? (s : System) : Move → Option Outgoing
  | .step (.call number) => (s.calls.lookup number).bind s.entering
  | _ => none

/-- The message of a call that enters the queue with a move. -/
def accepted? (s : System) : Move → Option String
  | .step (.call number) => (s.calls.lookup number).bind s.accepting
  | _ => none

end System

namespace History

/-- Everything that the writer has written. -/
def written (history : History) : List UInt8 := history.flatMap fun e => e.1.wrote e.2

/-- Everything that has entered the queue, in that order. -/
def entered (history : History) : List Outgoing := history.filterMap fun e => e.1.entered? e.2

/-- The messages of calls that have entered the queue, in that order. -/
def accepted (history : History) : List String := history.filterMap fun e => e.1.accepted? e.2

variable (history before behind : History) (s : System) (move : Move)

theorem written_append : (before ++ behind).written = before.written ++ behind.written :=
  List.flatMap_append

theorem written_cons : written ((s, move) :: behind) = s.wrote move ++ behind.written := rfl

theorem written_snoc : written (history ++ [(s, move)]) = history.written ++ s.wrote move := by
  rw [written_append, written_cons]
  exact congrArg _ (List.append_nil _)

theorem entered_append : (before ++ behind).entered = before.entered ++ behind.entered :=
  List.filterMap_append

theorem entered_snoc :
    entered (history ++ [(s, move)]) = history.entered ++ (s.entered? move).toList := by
  rw [entered_append]
  cases hentered : s.entered? move <;> simp [entered, hentered]

theorem accepted_snoc :
    accepted (history ++ [(s, move)]) = history.accepted ++ (s.accepted? move).toList := by
  rw [accepted, List.filterMap_append]
  cases haccepted : s.accepted? move <;> simp [accepted, haccepted]

end History

namespace System

variable {s t : System} {move : Move}

/-! ## 2. Steps -/

theorem queue_tear (s : System) (teardown : Teardown) : (s.tear teardown).1.queue = s.queue := by
  cases teardown <;> rfl

theorem link_tear (s : System) (teardown : Teardown) : (s.tear teardown).1.link = s.link := by
  cases teardown <;> rfl

/-- What a step of a call does to the queue. -/
theorem queue_stepStage {stage : Stage} {next : Next} (h : s.stepStage stage = some (t, next)) :
    t.queue.items = s.queue.items ++ (s.entering stage).toList ∧
      (s.queue.detached = true → t.queue.detached = true) := by
  cases hstage : stage.teardown? with
  | some teardown =>
    have hnone : s.entering stage = none := by
      cases stage
      case refuseTeardown | closeTeardown | dropTeardown => rfl
      all_goals cases hstage
    rw [hnone, Option.toList_none, List.append_nil]
    rcases (stepStage_of_teardown hstage h).1 with rfl | rfl
    · rw [queue_tear]
      exact ⟨rfl, id⟩
    · rw [detach, queue_tear]
      exact ⟨rfl, fun _ => rfl⟩
  | none =>
    cases stage
    case refuseTeardown | closeTeardown | dropTeardown => cases hstage
    case greet =>
      simp only [stepStage] at h
      split at h
      all_goals cases h
      all_goals simp [entering, *]
    case enqueue ticket purpose message =>
      simp only [stepStage] at h
      repeat' split at h
      all_goals cases h
      all_goals simp [entering, accepts, *]
    case flush deadline =>
      simp only [stepStage] at h
      repeat' split at h
      all_goals cases h
      all_goals simp [entering, accepts, *]
    -- the other stages leave the items alone
    all_goals
      simp only [stepStage] at h
      repeat' split at h
    all_goals cases h
    all_goals first
      | exact ⟨(List.append_nil _).symm, id⟩
      | exact ⟨(List.append_nil _).symm, fun _ => rfl⟩

/-- What enters the queue goes behind what is there. -/
theorem items_stepCall {number : Nat} (h : s.stepCall number = some t) :
    t.queue.items = s.queue.items ++ (s.entered? (.step (.call number))).toList := by
  obtain ⟨stage, u, next, hstage, hstep, rfl⟩ := stepCall_cases h
  rw [entered?, hstage, Option.bind_some, ← (queue_stepStage hstep).1]
  cases next <;> rfl

theorem written_stepReceiver (h : s.stepReceiver = some t) :
    t.link.written = s.link.written := by
  unfold stepReceiver at h
  split at h
  · cases h
    rfl
  · unfold workReceiver at h
    split at h
    · next hreceiver =>
      -- reading takes octets from the other direction alone
      split at h
      · next bs link hread =>
        cases h
        rw [Link.read] at hread
        repeat' split at hread
        all_goals cases hread
        rfl
      all_goals cases h
      all_goals rfl
    · split at h
      all_goals cases h
      all_goals rfl
    · cases h
      unfold route
      repeat' split
      all_goals rfl
    · split at h
      all_goals cases h
      all_goals rfl
    · next teardown hreceiver =>
      have hlink := congrArg Link.written (link_tear s teardown)
      split at h
      · next u rest heq =>
        cases h
        rw [heq] at hlink
        exact hlink
      · next u heq =>
        cases h
        rw [heq] at hlink
        exact hlink
    · cases h

/-- The octets behind those that had been written are what a step wrote. -/
theorem wrote_of_step {task : Task} {octets : List UInt8} (h : s.step task = some t)
    (hlink : t.link.written = s.link.written ++ octets) : s.wrote (.step task) = octets := by
  simp only [wrote, perform, h]
  rw [hlink, List.drop_left]

theorem wrote_of_stepWriter {octets : List UInt8} (h : s.stepWriter = some t)
    (hlink : t.link.written = s.link.written ++ octets) : s.wrote (.step .writer) = octets :=
  wrote_of_step (show s.step .writer = some t from h) hlink

/-- Nobody writes but the writer. -/
theorem wrote_of_ne (h : s.perform move = some t) (hne : move ≠ .step .writer) :
    s.wrote move = [] := by
  cases move with
  | step task =>
    refine wrote_of_step h ?_
    rw [List.append_nil]
    cases task with
    | writer => exact absurd rfl hne
    | receiver => exact written_stepReceiver h
    | call number => rw [stepCall_frame h]
  | _ => rfl

/-- What a step of the writer adds to the octets on the link, and what it leaves alone. -/
theorem WriterStep.frame {writer : Writer} (h : WriterStep s t writer) :
    (∃ octets, t.link.written = s.link.written ++ octets) ∧
      t.queue.detached = s.queue.detached ∧
      (writer.waits = false → t.link = s.link ∧ t.writer.waits = false) := by
  have hsame := (List.append_nil s.link.written).symm
  cases h with
  | write count link hlink ht => subst ht; exact ⟨⟨_, hlink⟩, rfl, nofun⟩
  | @close teardown rest hrest ht =>
    subst ht
    have hlink := link_tear s teardown
    have hdetached := congrArg Queue.detached (queue_tear s teardown)
    exact ⟨⟨[], (congrArg Link.written hlink).trans hsame⟩, hdetached, fun _ => ⟨hlink, rfl⟩⟩
  | @finish teardown hrest ht =>
    subst ht
    have hlink := link_tear s teardown
    have hdetached := congrArg Queue.detached (queue_tear s teardown)
    exact ⟨⟨[], (congrArg Link.written hlink).trans hsame⟩, hdetached, fun _ => ⟨hlink, rfl⟩⟩
  | stop _ hwaits ht =>
    subst ht
    refine ⟨⟨[], hsame⟩, rfl, fun hover => ?_⟩
    rw [hwaits] at hover
    cases hover
  | take _ _ _ ht => subst ht; exact ⟨⟨[], hsame⟩, rfl, nofun⟩
  | obey _ _ ht => subst ht; exact ⟨⟨[], hsame⟩, rfl, nofun⟩
  | leave _ _ ht => subst ht; exact ⟨⟨[], hsame⟩, rfl, nofun⟩
  | flush ht => subst ht; exact ⟨⟨[], hsame⟩, rfl, nofun⟩
  | fail _ _ ht => subst ht; exact ⟨⟨[], hsame⟩, rfl, nofun⟩
  | shut _ ht => subst ht; exact ⟨⟨[], hsame⟩, rfl, nofun⟩

/-- What is on the link stays there, and a step writes behind it. -/
theorem written_step {task : Task} (h : s.step task = some t) :
    t.link.written = s.link.written ++ s.wrote (.step task) := by
  have hgrows : ∃ octets, t.link.written = s.link.written ++ octets := by
    cases task with
    | writer => exact (writerStep h).frame.1
    | receiver => exact ⟨[], by rw [written_stepReceiver h, List.append_nil]⟩
    | call number => exact ⟨[], by rw [stepCall_frame h, List.append_nil]⟩
  obtain ⟨octets, hoctets⟩ := hgrows
  rw [hoctets, wrote_of_step h hoctets]

/-- What the moves of others do to the writer and the queue. -/
theorem writer_perform_of_ne (h : s.perform move = some t) (hne : move ≠ .step .writer) :
    t.writer = s.writer ∧ t.queue.items = s.queue.items ++ (s.entered? move).toList ∧
      (s.queue.detached = true → t.queue.detached = true) := by
  cases move with
  | step task =>
    cases task with
    | writer => exact absurd rfl hne
    | receiver =>
      rw [stepReceiver_frame h]
      exact ⟨rfl, (List.append_nil _).symm, id⟩
    | call number =>
      refine ⟨by rw [stepCall_frame h], items_stepCall h, ?_⟩
      obtain ⟨stage, u, next, -, hstep, rfl⟩ := stepCall_cases h
      cases next <;> exact (queue_stepStage hstep).2
  | _ =>
    rw [perform_frame h nofun]
    exact ⟨rfl, (List.append_nil _).symm, id⟩

theorem detached_perform (h : s.perform move = some t) (hs : s.queue.detached = true) :
    t.queue.detached = true := by
  by_cases hmove : move = .step .writer
  · subst hmove
    exact (writerStep h).frame.2.1.trans hs
  · exact (writer_perform_of_ne h hmove).2.2 hs

/-- **A writer that has come to a teardown or to its end writes nothing more.** -/
theorem quiet_perform (h : s.perform move = some t) (hover : s.writer.waits = false) :
    s.wrote move = [] ∧ t.writer.waits = false := by
  by_cases hmove : move = .step .writer
  · subst hmove
    obtain ⟨hlink, hwaits⟩ := (writerStep h).frame.2.2 hover
    exact ⟨wrote_of_stepWriter h (by rw [hlink, List.append_nil]), hwaits⟩
  · exact ⟨wrote_of_ne h hmove, (writer_perform_of_ne h hmove).1 ▸ hover⟩

theorem quiet_run {behind : History} (h : Run s behind t) (hover : s.writer.waits = false) :
    behind.written = [] ∧ t.writer.waits = false := by
  induction h with
  | nil => exact ⟨rfl, hover⟩
  | snoc _ hstep ih =>
    obtain ⟨hwrote, hwaits⟩ := quiet_perform hstep ih.2
    rw [History.written_snoc, ih.1, hwrote]
    exact ⟨rfl, hwaits⟩

/-- Nothing is written from a step on with which the writer leaves off. -/
theorem quiet_behind {u : System} {behind : History} (h : s.stepWriter = some t)
    (hlink : t.link.written = s.link.written) (hover : t.writer.waits = false)
    (hbehind : Run t behind u) : History.written ((s, .step .writer) :: behind) = [] := by
  have hwrote : s.wrote (.step .writer) = [] :=
    wrote_of_stepWriter h (hlink.trans (List.append_nil _).symm)
  rw [History.written_cons, hwrote, (quiet_run hbehind hover).1]
  rfl

end System

/-! ## 3. Where the writer is -/

/-- A step at which the writer leaves off: it is told to stop, shuts the link down, or fails. -/
def System.LeavesOff (s : System) : Prop :=
  s.writer.waits = true ∧ (s.writerStops = true ∨
    s.writer = .shutting ∧ s.writerStops = false ∨ (s.writeFault? (.step .writer)).isSome)

/-- What has been written, at every place that the writer can be at: the items that it has
    dealt with in full, and what it has written of the one it is at. -/
inductive Written (history : History) (s : System) : Writer → Prop where
  | idle (done : List Outgoing) (hdone : Outgoing.shutdown ∉ done)
    (hentered : history.entered = done ++ s.queue.items)
    (hwritten : history.written = done.flatMap Outgoing.octets) : Written history s .idle
  | writing {rest : List UInt8} (done : List Outgoing) (body : List UInt8)
    (hdone : Outgoing.shutdown ∉ done)
    (hentered : history.entered = done ++ .message body :: s.queue.items)
    (hwritten : history.written ++ rest = done.flatMap Outgoing.octets ++ body) :
    Written history s (.writing rest)
  /-- It has found the order to shut down, or nobody can give it any more. -/
  | shutting (done behind : List Outgoing) (hdone : Outgoing.shutdown ∉ done)
    (hentered : history.entered = done ++ behind)
    (hmark : s.queue.detached = true ∨ ∃ rest, behind = .shutdown :: rest)
    (hwritten : history.written = done.flatMap Outgoing.octets) : Written history s .shutting
  /-- It has left off. -/
  | ceased {writer : Writer} (hover : writer.waits = false) (early late : History) (u : System)
    (hhistory : history = early ++ (u, .step .writer) :: late) (hleaves : u.LeavesOff)
    (hquiet : History.written ((u, .step .writer) :: late) = []) : Written history s writer

namespace Written

variable {history : History} {s t : System} {move : Move}

theorem leave_off (hstep : s.stepWriter = some t) (hleaves : s.LeavesOff)
    (hlink : t.link.written = s.link.written) (hover : t.writer.waits = false) :
    Written (history ++ [(s, .step .writer)]) t t.writer :=
  .ceased hover history [] s rfl hleaves (System.quiet_behind hstep hlink hover .nil)

/-- A step of the writer. -/
theorem stepWriter (h : Written history s s.writer) (hstep : s.stepWriter = some t) :
    Written (history ++ [(s, .step .writer)]) t t.writer := by
  have hentered' : History.entered (history ++ [(s, .step .writer)]) = history.entered := by
    rw [History.entered_snoc]
    exact List.append_nil _
  have hwritten' : ∀ octets, t.link.written = s.link.written ++ octets →
      History.written (history ++ [(s, .step .writer)]) = history.written ++ octets := by
    intro octets hlink
    rw [History.written_snoc, System.wrote_of_stepWriter hstep hlink]
  have hsilent : t.link.written = s.link.written →
      History.written (history ++ [(s, .step .writer)]) = history.written := by
    intro hlink
    rw [hwritten' [] (hlink.trans (List.append_nil _).symm), List.append_nil]
  have hcases := System.writerStep hstep
  have hquiet' : s.writer.waits = false →
      s.wrote (.step .writer) = [] ∧ t.writer.waits = false := System.quiet_perform hstep
  have hleaves : ∀ writer, s.writer = writer → writer.waits = true →
    (s.writerStops = true ∨ writer = .shutting ∧ s.writerStops = false ∨
      (s.writeFault? (.step .writer)).isSome) → s.LeavesOff := by
    rintro writer rfl hwaits hcause
    exact ⟨hwaits, hcause⟩
  generalize hwriter : s.writer = writer at h hcases hquiet'
  cases h with
  | idle done hdone hentered hwritten =>
    cases hcases with
    | stop hstops hwaits ht =>
      subst ht
      exact leave_off hstep (hleaves _ hwriter hwaits (.inl hstops)) rfl rfl
    | take octets items hitems ht =>
      subst ht
      refine .writing done octets hdone ?_ ?_
      · rw [hentered', hentered, hitems]
      · rw [hsilent rfl, hwritten]
    | obey items hitems ht =>
      subst ht
      refine .shutting done (.shutdown :: items) hdone ?_ (.inr ⟨items, rfl⟩) ?_
      · rw [hentered', hentered, hitems]
      · rw [hsilent rfl, hwritten]
    | leave hitems hdetached ht =>
      subst ht
      refine .shutting done [] hdone ?_ (.inl hdetached) ?_
      · rw [hentered', hentered, hitems]
      · rw [hsilent rfl, hwritten]
  | writing done body hdone hentered hwritten =>
    cases hcases with
    | stop hstops hwaits ht =>
      subst ht
      exact leave_off hstep (hleaves _ hwriter hwaits (.inl hstops)) rfl rfl
    | fail text hfault ht =>
      subst ht
      exact leave_off hstep (hleaves _ hwriter rfl (.inr (.inr (by rw [hfault]; rfl)))) rfl rfl
    | write count link hlink ht =>
      subst ht
      refine .writing done body hdone ?_ ?_
      · rw [hentered', hentered]
      · rw [hwritten' _ hlink, List.append_assoc, List.take_append_drop, hwritten]
    | flush ht =>
      subst ht
      refine .idle (done ++ [.message body]) ?_ ?_ ?_
      · simpa using hdone
      · rw [hentered', hentered]
        simp
      · rw [hsilent rfl, ← List.append_nil history.written, hwritten]
        simp [Outgoing.octets]
  | shutting done behind hdone hentered hmark hwritten =>
    cases hcases with
    | stop hstops hwaits ht =>
      subst ht
      exact leave_off hstep (hleaves _ hwriter hwaits (.inl hstops)) rfl rfl
    | shut hstops ht =>
      subst ht
      exact leave_off hstep (hleaves _ hwriter rfl (.inr (.inl ⟨rfl, hstops⟩))) rfl rfl
  | ceased hover early late u hhistory hleaves hquiet =>
    obtain ⟨hwrote, hwaits⟩ := hquiet' hover
    refine .ceased hwaits early (late ++ [(s, .step .writer)]) u ?_ hleaves ?_
    · rw [hhistory, List.append_assoc]
      rfl
    · rw [← List.cons_append, History.written_snoc, hquiet, hwrote]
      rfl

/-- **Every move keeps the order of what has been written.** -/
theorem perform (h : Written history s s.writer) (hstep : s.perform move = some t) :
    Written (history ++ [(s, move)]) t t.writer := by
  by_cases hmove : move = .step .writer
  · subst hmove
    exact h.stepWriter hstep
  · -- the others only add to the queue
    obtain ⟨hwriter, hitems, hdetached⟩ := System.writer_perform_of_ne hstep hmove
    have hentered' := History.entered_snoc history s move
    have hwrote := System.wrote_of_ne hstep hmove
    have hwritten' : History.written (history ++ [(s, move)]) = history.written := by
      rw [History.written_snoc, hwrote, List.append_nil]
    rw [hwriter]
    generalize s.writer = writer at h
    cases h with
    | idle done hdone hentered hwritten =>
      refine .idle done hdone ?_ (hwritten'.trans hwritten)
      rw [hentered', hentered, hitems, List.append_assoc]
    | writing done body hdone hentered hwritten =>
      refine .writing done body hdone ?_ (by rw [hwritten', hwritten])
      rw [hentered', hentered, hitems, List.append_assoc, List.cons_append]
    | shutting done behind hdone hentered hmark hwritten =>
      refine .shutting done (behind ++ (s.entered? move).toList) hdone ?_ ?_
        (hwritten'.trans hwritten)
      · rw [hentered', hentered, List.append_assoc]
      · exact hmark.imp hdetached fun ⟨rest, hrest⟩ => ⟨_, by rw [hrest, List.cons_append]⟩
    | ceased hover early late u hhistory hleaves hquiet =>
      refine .ceased hover early (late ++ [(s, move)]) u ?_ hleaves ?_
      · rw [hhistory, List.append_assoc]
        rfl
      · rw [← List.cons_append, History.written_snoc, hquiet, hwrote]
        rfl

theorem run {config : Config} {own : CapabilitySet} {link : Link} {now : Duration}
    (h : Run (.start config own link now) history s) : Written history s s.writer := by
  induction h with
  | nil => exact .idle [] List.not_mem_nil rfl rfl
  | snoc _ hstep ih => exact ih.perform hstep

theorem prefix_of_waits {writer : Writer} (h : Written history s writer)
    (hwaits : writer.waits = true) :
    history.written <+: history.entered.flatMap Outgoing.octets := by
  cases h with
  | idle done _ hentered hwritten =>
    rw [hentered, hwritten, List.flatMap_append]
    exact List.prefix_append _ _
  | writing done body _ hentered hwritten =>
    rw [hentered, List.flatMap_append, List.flatMap_cons, Outgoing.octets, ← List.append_assoc,
      ← hwritten, List.append_assoc]
    exact List.prefix_append _ _
  | shutting done behind _ hentered _ hwritten =>
    rw [hentered, hwritten, List.flatMap_append]
    exact List.prefix_append _ _
  | ceased hover =>
    rw [hover] at hwaits
    cases hwaits

/-- **What has been written is the front of what has entered the queue.** -/
theorem prefix_run {config : Config} {own : CapabilitySet} {link : Link} {now : Duration}
    (h : Run (.start config own link now) history s) :
    history.written <+: history.entered.flatMap Outgoing.octets := by
  have hwritten := run h
  cases hwaits : s.writer.waits with
  | true => exact hwritten.prefix_of_waits hwaits
  | false =>
    generalize s.writer = writer at hwritten hwaits
    cases hwritten with
    | idle | writing | shutting => cases hwaits
    | ceased hover early late u hhistory hleaves hquiet =>
      -- nothing was written since the writer has left off
      subst hhistory
      have hearly := (run h.split.1).prefix_of_waits hleaves.1
      rw [History.written_append, hquiet, List.append_nil, History.entered_append,
        List.flatMap_append]
      exact hearly.trans (List.prefix_append _ _)

end Written

end NetconfClient.Session
