/-
  NetconfClient/Proofs/Ssh/Shutdown.lean
  ======================================
  **A transport says farewell once and in order.**

  A transport is polled in any order, and at each poll the channel and the session
  answer as they like.  What they were asked is kept in a log, with what came of
  it.  How far the farewell has come can be read off the log (`Stage`), and every
  poll keeps it so (`Course.staged_run`).
-/
import NetconfClient.Ssh.Transport

namespace NetconfClient.Ssh

/-! ## 1. Polls and their log -/

/-- What came of an ask. -/
inductive Verdict where
  | pending
  | failed
  | succeeded
  deriving DecidableEq

def Poll.verdict : Poll (Except ε α) → Verdict
  | pending => .pending
  | ready (.error _) => .failed
  | ready (.ok _) => .succeeded

def ChannelAnswers.verdict (a : ChannelAnswers) : Ask → Verdict
  | .read room => (a.read room).verdict
  | .write octets => (a.write octets).verdict
  | .flush => a.flush.verdict
  | .farewell step | .resume step => (a.farewell step).verdict

/-- What a transport is polled for. -/
inductive Request where
  | read (room : Nat)
  | write (octets : List UInt8)
  | flush
  | shutdown

/-- A poll, and what the channel and the session answer to it. -/
structure Turn where
  request : Request
  answers : ChannelAnswers

/-- What has been asked so far, and what came of it. -/
abbrev Log : Type := List (Ask × Verdict)

def ChannelAnswers.entries (a : ChannelAnswers) (asks : List Ask) : Log :=
  asks.map fun ask => (ask, a.verdict ask)

/-- The transport behind a poll, and what it asked. -/
def Transport.poll (t : Transport) (turn : Turn) : Transport × List Ask :=
  match turn.request with
  | .read room => (t, (t.read turn.answers room).2)
  | .write octets => (t, (t.write turn.answers octets).2)
  | .flush => (t, (t.flush turn.answers).2)
  | .shutdown => (t.shutdown turn.answers).2

/-- A transport with its log. -/
structure Course where
  log : Log
  transport : Transport

namespace Course

/-- Nothing has been polled yet. -/
def start : Course := ⟨[], .usable⟩

def take (c : Course) (turn : Turn) : Course where
  log := c.log ++ turn.answers.entries (c.transport.poll turn).2
  transport := (c.transport.poll turn).1

def run (c : Course) (turns : List Turn) : Course := turns.foldl take c

end Course

/-! ## 2. What the log may say -/

namespace Ask

/-- Whether an ask belongs to the farewell. -/
def isParting : Ask → Bool
  | farewell _ | resume _ => true
  | _ => false

/-- The step that is called for. -/
def called? : Ask → Option Farewell
  | farewell step => some step
  | _ => none

end Ask

/-- What has to succeed directly before a step is called for. -/
def Farewell.awaits : Farewell → List Ask
  | sendEnd => [.flush]
  | closeChannel => [.farewell .sendEnd, .resume .sendEnd]
  | disconnect => [.farewell .closeChannel, .resume .closeChannel]

/-- The steps that have been called for, in their order. -/
def Log.calls (log : Log) : List Farewell := log.filterMap (·.1.called?)

/-- Whether the farewell is over with an entry, well or not. -/
def finishes (entry : Ask × Verdict) : Bool :=
  match entry with
  | (.farewell _, .failed) | (.resume _, .failed) => true
  | (.farewell .disconnect, .succeeded) | (.resume .disconnect, .succeeded) => true
  | _ => false

/-- The farewell is over. -/
def Log.Finished (log : Log) : Prop := ∃ entry ∈ log, finishes entry = true

/-- What may be asked behind a log: a step directly behind the success of what it awaits, the
    rest of a step only as long as it is pending, and the channel only before the farewell. -/
def Log.Allows (log : Log) : Ask → Prop
  | .farewell step => ∃ front awaited, log = front ++ [(awaited, .succeeded)] ∧ awaited ∈ step.awaits
  | .resume step => ∃ front begun, log = front ++ [(begun, .pending)] ∧
      begun ∈ [.farewell step, .resume step]
  | _ => ∀ entry ∈ log, entry.1.isParting = false

/-- Every ask was allowed when it was made. -/
def Log.Proper (log : Log) : Prop :=
  ∀ before ask verdict behind, log = before ++ (ask, verdict) :: behind → Log.Allows before ask

variable {log : Log} {ask : Ask} {verdict : Verdict} {step : Farewell} {steps : List Farewell}
  {a : ChannelAnswers} {t : Transport}

theorem proper_nil : Log.Proper [] := by
  intro before ask verdict behind h
  simp at h

theorem Log.Proper.concat (h : log.Proper) (hask : log.Allows ask) :
    Log.Proper (log ++ [(ask, verdict)]) := by
  intro before other outcome behind heq
  rcases behind.eq_nil_or_concat with rfl | ⟨front, last, rfl⟩
  · obtain ⟨rfl, hlast⟩ := List.append_inj' heq rfl
    cases hlast
    exact hask
  · rw [List.concat_eq_append, ← List.cons_append, ← List.append_assoc] at heq
    obtain ⟨hlog, -⟩ := List.append_inj' heq rfl
    exact h before other outcome front hlog

theorem Log.calls_concat : Log.calls (log ++ [(ask, verdict)]) = log.calls ++ ask.called?.toList := by
  rw [calls, List.filterMap_append]
  cases hcall : ask.called? <;> simp [hcall, calls]

theorem Log.finished_concat :
    Log.Finished (log ++ [(ask, verdict)]) ↔ log.Finished ∨ finishes (ask, verdict) = true := by
  simp [Finished, or_and_right, exists_or]

theorem called?_of_unparted (h : ask.isParting = false) : ask.called? = none := by
  cases ask with
  | farewell _ | resume _ => cases h
  | _ => rfl

theorem finishes_of_unparted (h : ask.isParting = false) : finishes (ask, verdict) = false := by
  cases ask with
  | farewell _ | resume _ => cases h
  | _ => rfl

theorem calls_of_unparted (h : ∀ entry ∈ log, entry.1.isParting = false) : log.calls = [] := by
  apply List.filterMap_eq_nil_iff.mpr
  intro entry hentry
  exact called?_of_unparted (h entry hentry)

theorem unfinished_of_unparted (h : ∀ entry ∈ log, entry.1.isParting = false) : ¬ log.Finished := by
  rintro ⟨entry, hentry, hfinishes⟩
  rw [finishes_of_unparted (h entry hentry)] at hfinishes
  cases hfinishes

/-! ## 3. How far the farewell has come -/

/-- The steps that are left, when the first of them may be asked for in that way. -/
inductive Due (ask : Farewell → Ask) : Log → List Farewell → Prop where
  | over {log : Log} : log.Finished → log.calls <+: Farewell.steps → Due ask log []
  | next {log : Log} {done steps : List Farewell} {step : Farewell} :
      log.Allows (ask step) → done ++ step :: steps = Farewell.steps →
        log.calls ++ (ask step).called?.toList = done ++ [step] → ¬ log.Finished →
          Due ask log (step :: steps)

/-- How far a transport has come, by its log. -/
inductive Stage : Log → Transport → Prop where
  | usable {log : Log} : (∀ entry ∈ log, entry.1.isParting = false) → Stage log .usable
  | leaving {log : Log} {step : Farewell} {steps : List Farewell} :
      Due .resume log (step :: steps) → Stage log (.leaving (step :: steps))
  | gone {log : Log} : log.Finished → log.calls <+: Farewell.steps → Stage log .gone

/-- The steps in front of a step and its successor. -/
theorem awaits_eq {done : List Farewell} {next : Farewell}
    (h : done ++ step :: next :: steps = Farewell.steps) :
    next.awaits = [.farewell step, .resume step] := by
  rcases done with _ | ⟨first, _ | ⟨second, done⟩⟩
  · cases h
    rfl
  · cases h
    rfl
  · have hlength := congrArg List.length h
    simp [Farewell.steps] at hlength
    omega

theorem eq_disconnect {done : List Farewell} (h : done ++ [step] = Farewell.steps) :
    step = .disconnect := by
  have hsteps : Farewell.steps = [.sendEnd, .closeChannel] ++ [.disconnect] := rfl
  rw [hsteps] at h
  obtain ⟨-, hstep⟩ := List.append_inj' h rfl
  cases hstep
  rfl

/-- The ways to ask for a step. -/
def Farewell.asks (step : Farewell) : List Ask := [.farewell step, .resume step]

theorem verdict_of_mem_asks (h : ask ∈ step.asks) : a.verdict ask = (a.farewell step).verdict := by
  simp only [Farewell.asks, List.mem_cons, List.not_mem_nil, or_false] at h
  rcases h with rfl | rfl <;> rfl

theorem finishes_of_mem_asks (h : ask ∈ step.asks) :
    finishes (ask, verdict) =
      (verdict == .failed || (verdict == .succeeded && step == .disconnect)) := by
  simp only [Farewell.asks, List.mem_cons, List.not_mem_nil, or_false] at h
  rcases h with rfl | rfl <;> cases verdict <;> cases step <;> rfl

namespace Due

variable {way : Farewell → Ask}

theorem pending (hway : way step ∈ step.asks) (h : Due way log (step :: steps)) :
    Stage (log ++ [(way step, .pending)]) (.leaving (step :: steps)) := by
  obtain _ | ⟨-, hdone, hcalls, hfinished⟩ := h
  refine .leaving (.next ⟨log, way step, rfl, hway⟩ hdone ?_ ?_)
  · rw [Log.calls_concat, hcalls]
    exact List.append_nil _
  · rw [Log.finished_concat, finishes_of_mem_asks hway]
    rintro (h | h)
    · exact hfinished h
    · cases h

theorem failed (hway : way step ∈ step.asks) (h : Due way log (step :: steps)) :
    Stage (log ++ [(way step, .failed)]) .gone := by
  obtain _ | ⟨-, hdone, hcalls, -⟩ := h
  refine .gone ?_ ?_
  · rw [Log.finished_concat, finishes_of_mem_asks hway]
    exact .inr rfl
  · rw [Log.calls_concat, hcalls, ← hdone, List.append_cons _ _ steps]
    exact List.prefix_append _ _

theorem succeeded (hway : way step ∈ step.asks) (h : Due way log (step :: steps)) :
    Due .farewell (log ++ [(way step, .succeeded)]) steps := by
  cases h with
  | @next done _ _ _ hdone hcalls hfinished =>
    cases steps with
    | nil =>
      apply Due.over
      · rw [Log.finished_concat, finishes_of_mem_asks hway, eq_disconnect hdone]
        exact .inr rfl
      · have hall : (log ++ [(way step, .succeeded)] : Log).calls = Farewell.steps :=
          Log.calls_concat.trans (hcalls.trans hdone)
        exact hall ▸ List.prefix_rfl
    | cons next steps =>
      have hawaits := awaits_eq hdone
      refine @Due.next _ _ (done ++ [step]) steps next ⟨log, way step, rfl, ?_⟩ ?_ ?_ ?_
      · rw [hawaits]
        exact hway
      · rw [List.append_assoc]
        exact hdone
      · rw [Log.calls_concat, hcalls]
        rfl
      · rw [Log.finished_concat, finishes_of_mem_asks hway]
        rintro (h | h)
        · exact hfinished h
        · have hstep : step = .disconnect := by simpa using h
          rw [hstep] at hawaits
          cases next <;> cases hawaits

/-- **Taking the steps that are left keeps the log in order.** -/
theorem leave (a : ChannelAnswers) (hway : ∀ step, way step ∈ step.asks) (h : Due way log steps)
    (hproper : log.Proper) :
    Log.Proper (log ++ a.entries (Transport.leave a way steps).2.2) ∧
      Stage (log ++ a.entries (Transport.leave a way steps).2.2)
        (Transport.leave a way steps).2.1 := by
  induction steps generalizing log way with
  | nil =>
    obtain ⟨hfinished, hcalls⟩ | _ := h
    change (log ++ []).Proper ∧ Stage (log ++ []) .gone
    rw [List.append_nil]
    exact ⟨hproper, .gone hfinished hcalls⟩
  | cons step steps ih =>
    have hallowed : log.Allows (way step) := by
      obtain _ | ⟨hallowed, -, -, -⟩ := h
      exact hallowed
    have hverdict : a.verdict (way step) = (a.farewell step).verdict := verdict_of_mem_asks (hway step)
    rw [Transport.leave]
    cases hanswer : a.farewell step with
    | pending =>
      rw [hanswer] at hverdict
      change Log.Proper (log ++ [(way step, a.verdict (way step))]) ∧
        Stage (log ++ [(way step, a.verdict (way step))]) _
      rw [hverdict]
      exact ⟨hproper.concat hallowed, h.pending (hway step)⟩
    | ready result =>
      rw [hanswer] at hverdict
      cases result with
      | error text =>
        change Log.Proper (log ++ [(way step, a.verdict (way step))]) ∧
          Stage (log ++ [(way step, a.verdict (way step))]) _
        rw [hverdict]
        exact ⟨hproper.concat hallowed, h.failed (hway step)⟩
      | ok _ =>
        change Log.Proper (log ++ (way step, a.verdict (way step)) :: a.entries _) ∧
          Stage (log ++ (way step, a.verdict (way step)) :: a.entries _) _
        rw [hverdict, List.append_cons]
        apply ih
        · intro next
          exact List.mem_cons_self
        · exact h.succeeded (hway step)
        · exact hproper.concat hallowed

end Due

/-! ## 4. Whole runs -/

/-- A shutdown has been polled and the flush in front of it has succeeded. -/
def Flushed (turns : List Turn) : Prop :=
  ∃ turn ∈ turns, turn.request = .shutdown ∧ turn.answers.flush = .ready (.ok ())

namespace Course

variable {c : Course} {turn : Turn} {turns : List Turn}

theorem take_ask (ht : (c.transport.poll turn) = (t, [ask])) :
    c.take turn = ⟨c.log ++ [(ask, turn.answers.verdict ask)], t⟩ := by
  rw [take, ht]
  rfl

theorem take_quiet (ht : c.transport.poll turn = (c.transport, [])) : c.take turn = c := by
  rw [take, ht]
  change Course.mk (c.log ++ []) c.transport = c
  rw [List.append_nil]

/-- An ask of a transport that stays usable. -/
theorem staged_take_usable (hproper : c.log.Proper) (hlog : ∀ entry ∈ c.log, entry.1.isParting = false)
    (hask : ask.isParting = false) (ht : c.transport.poll turn = (.usable, [ask])) :
    (c.take turn).log.Proper ∧ Stage (c.take turn).log (c.take turn).transport := by
  have hallowed : c.log.Allows ask := by
    cases ask with
    | farewell _ | resume _ => cases hask
    | _ => exact hlog
  rw [take_ask ht]
  refine ⟨hproper.concat hallowed, .usable ?_⟩
  intro entry hentry
  rcases List.mem_append.mp hentry with hentry | hentry
  · exact hlog entry hentry
  · rw [List.mem_singleton.mp hentry]
    exact hask

theorem staged_take_shutdown (hproper : c.log.Proper)
    (hlog : ∀ entry ∈ c.log, entry.1.isParting = false) (hc : c.transport = .usable)
    (hturn : turn.request = .shutdown) :
    (c.take turn).log.Proper ∧ Stage (c.take turn).log (c.take turn).transport := by
  obtain ⟨log, t⟩ := c
  obtain ⟨request, a⟩ := turn
  cases hc
  cases hturn
  have hpoll : Transport.usable.poll ⟨.shutdown, a⟩ = (Transport.usable.shutdown a).2 := rfl
  cases hflush : a.flush with
  | pending =>
    have hask : Transport.usable.poll ⟨.shutdown, a⟩ = (.usable, [.flush]) := by
      rw [hpoll, Transport.shutdown, hflush]
    exact staged_take_usable hproper hlog rfl hask
  | ready result =>
    cases result with
    | error error =>
      have hask : Transport.usable.poll ⟨.shutdown, a⟩ = (.usable, [.flush]) := by
        rw [hpoll, Transport.shutdown, hflush]
      exact staged_take_usable hproper hlog rfl hask
    | ok _ =>
      have hnext : take ⟨log, .usable⟩ ⟨.shutdown, a⟩ =
          ⟨log ++ [(.flush, .succeeded)] ++
            a.entries (Transport.leave a .farewell Farewell.steps).2.2,
            (Transport.leave a .farewell Farewell.steps).2.1⟩ := by
        have hverdict : a.verdict .flush = .succeeded := by
          rw [ChannelAnswers.verdict, hflush]
          rfl
        rw [take, hpoll, Transport.shutdown, hflush, ← hverdict, ← List.append_cons]
        rfl
      have hunparted : ∀ entry ∈ log ++ [(Ask.flush, Verdict.succeeded)],
          entry.1.isParting = false := by
        intro entry hentry
        rcases List.mem_append.mp hentry with hentry | hentry
        · exact hlog entry hentry
        · rw [List.mem_singleton.mp hentry]
          rfl
      have hdue : Due .farewell (log ++ [(Ask.flush, Verdict.succeeded)]) Farewell.steps := by
        refine @Due.next _ _ [] _ _ ⟨log, .flush, rfl, List.mem_cons_self⟩ rfl ?_ ?_
        · rw [calls_of_unparted hunparted]
          rfl
        · exact unfinished_of_unparted hunparted
      rw [hnext]
      apply hdue.leave a
      · intro step
        exact List.mem_cons_self
      · exact hproper.concat hlog

/-- **Every poll keeps the log in order.** -/
theorem staged_take (turn : Turn) (hproper : c.log.Proper) (h : Stage c.log c.transport) :
    (c.take turn).log.Proper ∧ Stage (c.take turn).log (c.take turn).transport := by
  obtain ⟨log, t⟩ := c
  obtain ⟨request, a⟩ := turn
  cases h with
  | usable hlog =>
    cases request with
    | read room => exact staged_take_usable hproper hlog rfl rfl
    | write octets => exact staged_take_usable hproper hlog rfl rfl
    | flush => exact staged_take_usable hproper hlog rfl rfl
    | shutdown => exact staged_take_shutdown hproper hlog rfl rfl
  | @leaving step steps hdue =>
    cases request with
    | read | write | flush =>
      rw [take_quiet rfl]
      exact ⟨hproper, .leaving hdue⟩
    | shutdown =>
      apply hdue.leave a _ hproper
      intro step
      exact List.mem_cons_of_mem _ List.mem_cons_self
  | gone hfinished hcalls =>
    cases request
    all_goals
      rw [take_quiet rfl]
      exact ⟨hproper, .gone hfinished hcalls⟩

theorem staged_run (turns : List Turn) (hproper : c.log.Proper) (h : Stage c.log c.transport) :
    (c.run turns).log.Proper ∧ Stage (c.run turns).log (c.run turns).transport := by
  induction turns generalizing c with
  | nil => exact ⟨hproper, h⟩
  | cons turn turns ih =>
    obtain ⟨hproper, h⟩ := staged_take turn hproper h
    exact ih hproper h

theorem staged (turns : List Turn) :
    (start.run turns).log.Proper ∧ Stage (start.run turns).log (start.run turns).transport := by
  apply staged_run turns proper_nil
  apply Stage.usable
  intro entry hentry
  cases hentry

theorem leave_ne_usable (a : ChannelAnswers) (way : Farewell → Ask) (steps : List Farewell) :
    (Transport.leave a way steps).2.1 ≠ .usable := by
  induction steps generalizing way with
  | nil => exact Transport.noConfusion
  | cons step steps ih =>
    rw [Transport.leave]
    split
    · exact Transport.noConfusion
    · exact Transport.noConfusion
    · exact ih .farewell

theorem usable_take : (c.take turn).transport = .usable ↔ c.transport = .usable ∧
    ¬ (turn.request = .shutdown ∧ turn.answers.flush = .ready (.ok ())) := by
  obtain ⟨log, t⟩ := c
  obtain ⟨request, a⟩ := turn
  cases request with
  | read | write | flush => simp [take, Transport.poll]
  | shutdown =>
    cases t with
    | usable =>
      rw [take, Transport.poll, Transport.shutdown]
      cases hflush : a.flush with
      | pending => simp
      | ready result =>
        cases result with
        | error error => simp
        | ok _ => simp [leave_ne_usable]
    | leaving steps => simp [take, Transport.poll, Transport.shutdown, leave_ne_usable]
    | gone => simp [take, Transport.poll, Transport.shutdown]

theorem usable_run : (c.run turns).transport = .usable ↔ c.transport = .usable ∧ ¬ Flushed turns := by
  induction turns generalizing c with
  | nil => simp [run, Flushed]
  | cons turn turns ih =>
    change ((c.take turn).run turns).transport = .usable ↔ _
    rw [ih, usable_take]
    simp only [Flushed, List.mem_cons, exists_eq_or_imp, not_or, and_assoc]

end Course

/-! ## 5. What a transport still does -/

namespace Transport

/-- Everything goes to the channel, and to shut down is to flush it first. -/
structure Open (t : Transport) : Prop where
  read : ∀ a room, t.read a room = (a.read room, [.read room])
  write : ∀ a octets, t.write a octets = (a.write octets, [.write octets])
  flush : ∀ a, t.flush a = (a.flush, [.flush])
  /-- As long as the flush has not succeeded, nothing has changed. -/
  stays : ∀ a, a.flush ≠ .ready (.ok ()) → t.shutdown a = (a.flush, t, [.flush])
  leaves : ∀ a, a.flush = .ready (.ok ()) →
    ∃ asks, (t.shutdown a).2.2 = .flush :: .farewell .sendEnd :: asks

/-- Nothing goes to the channel any more but the farewell. -/
structure Closed (t : Transport) : Prop where
  read : ∀ a room, t.read a room = (.ready (.ok []), [])
  write : ∀ a octets, ∃ error, t.write a octets = (.ready (.error error), []) ∧
    error.kind = .notConnected
  flush : ∀ a, t.flush a = (.ready (.ok ()), [])
  shutdown : ∀ a, ∀ ask ∈ (t.shutdown a).2.2, ask.isParting = true

theorem exists_asks_leave (a : ChannelAnswers) (way : Farewell → Ask) (step : Farewell)
    (steps : List Farewell) : ∃ asks, (leave a way (step :: steps)).2.2 = way step :: asks := by
  rw [leave]
  split
  · exact ⟨[], rfl⟩
  · exact ⟨[], rfl⟩
  · exact ⟨_, rfl⟩

theorem open_usable : Open .usable where
  read _ _ := rfl
  write _ _ := rfl
  flush _ := rfl
  stays := by
    intro a hflush
    rw [Transport.shutdown]
    cases h : a.flush with
    | pending => rfl
    | ready result =>
      cases result with
      | error error => rfl
      | ok _ => exact absurd h hflush
  leaves := by
    intro a hflush
    obtain ⟨asks, hasks⟩ := exists_asks_leave a .farewell .sendEnd [.closeChannel, .disconnect]
    refine ⟨asks, ?_⟩
    rw [Transport.shutdown, hflush, ← hasks]
    rfl

theorem isParting_of_mem_leave {way : Farewell → Ask} (hway : ∀ step, (way step).isParting = true)
    (a : ChannelAnswers) (steps : List Farewell) :
    ∀ ask ∈ (leave a way steps).2.2, ask.isParting = true := by
  induction steps generalizing way with
  | nil =>
    intro ask hask
    cases hask
  | cons step steps ih =>
    intro ask hask
    rw [leave] at hask
    split at hask
    · rw [List.mem_singleton.mp hask]
      exact hway step
    · rw [List.mem_singleton.mp hask]
      exact hway step
    · rcases List.mem_cons.mp hask with rfl | hask
      · exact hway step
      · exact ih (fun _ => rfl) ask hask

theorem leave_of_ne_pending (a : ChannelAnswers) (way : Farewell → Ask) (steps : List Farewell)
    (h : (leave a way steps).1 ≠ .pending) : (leave a way steps).2.1 = .gone := by
  induction steps generalizing way with
  | nil => rfl
  | cons step steps ih =>
    rw [leave] at h ⊢
    split at h
    · exact absurd rfl h
    · rfl
    · exact ih .farewell h

/-- A shutdown that comes to an end is over, unless the channel could not be flushed. -/
theorem shutdown_of_ne_pending (h : (t.shutdown a).1 ≠ .pending)
    (hleft : (t.shutdown a).2.1 ≠ .usable) : (t.shutdown a).2.1 = .gone := by
  cases t with
  | usable =>
    rw [Transport.shutdown] at h hleft ⊢
    cases hflush : a.flush with
    | pending =>
      rw [hflush] at hleft
      exact absurd rfl hleft
    | ready result =>
      cases result with
      | error error =>
        rw [hflush] at hleft
        exact absurd rfl hleft
      | ok _ =>
        rw [hflush] at h
        exact leave_of_ne_pending a .farewell Farewell.steps h
  | leaving steps => exact leave_of_ne_pending a .resume steps h
  | gone => rfl

theorem closed_of_ne_usable (h : t ≠ .usable) : Closed t := by
  cases t with
  | usable => exact absurd rfl h
  | leaving steps =>
    refine ⟨fun _ _ => rfl, fun _ _ => ⟨_, rfl, rfl⟩, fun _ => rfl, ?_⟩
    intro a
    exact isParting_of_mem_leave (fun _ => rfl) a steps
  | gone =>
    refine ⟨fun _ _ => rfl, fun _ _ => ⟨_, rfl, rfl⟩, fun _ => rfl, ?_⟩
    intro a ask hask
    cases hask

end Transport

/-! ## 6. Once and in order -/

theorem gone_of_finished {c : Course} (h : Stage c.log c.transport) (hfinished : c.log.Finished) :
    c.transport = .gone := by
  obtain ⟨log, t⟩ := c
  cases h with
  | usable hlog => exact absurd hfinished (unfinished_of_unparted hlog)
  | leaving hdue =>
    obtain _ | ⟨-, -, -, hunfinished⟩ := hdue
    exact absurd hfinished hunfinished
  | gone _ _ => rfl

theorem finished_of_gone {c : Course} (h : Stage c.log c.transport) (hgone : c.transport = .gone) :
    c.log.Finished := by
  obtain ⟨log, t⟩ := c
  cases h with
  | usable _ | leaving _ => cases hgone
  | gone hfinished _ => exact hfinished

theorem calls_in_order {c : Course} (h : Stage c.log c.transport) : c.log.calls <+: Farewell.steps := by
  obtain ⟨log, t⟩ := c
  cases h with
  | usable hlog =>
    rw [calls_of_unparted hlog]
    exact List.nil_prefix
  | leaving hdue =>
    obtain _ | ⟨-, hdone, hcalls, -⟩ := hdue
    rw [← hdone, List.append_cons, ← hcalls, List.append_assoc]
    exact List.prefix_append _ _
  | gone _ hcalls => exact hcalls

/-- **However a transport is polled, it says farewell once and in order**: behind a flush that has
    succeeded, and then for good. -/
theorem farewell_once (turns : List Turn) :
    (Course.start.run turns).log.calls <+: Farewell.steps ∧
      (Course.start.run turns).log.Proper ∧
      (¬ Flushed turns → (Course.start.run turns).transport.Open) ∧
      (Flushed turns → (Course.start.run turns).transport.Closed) ∧
      (∀ a, Flushed (turns ++ [⟨.shutdown, a⟩]) →
        ((Course.start.run turns).transport.shutdown a).1 ≠ .pending →
          (Course.start.run (turns ++ [⟨.shutdown, a⟩])).log.Finished) ∧
      ((Course.start.run turns).log.Finished → ∀ a,
        (Course.start.run turns).transport.shutdown a = (.ready (.ok ()), .gone, [])) := by
  obtain ⟨hproper, hstage⟩ := Course.staged turns
  refine ⟨calls_in_order hstage, hproper, ?_, ?_, ?_, ?_⟩
  · intro hflushed
    rw [Course.usable_run.mpr ⟨rfl, hflushed⟩]
    exact Transport.open_usable
  · intro hflushed
    apply Transport.closed_of_ne_usable
    intro husable
    exact (Course.usable_run.mp husable).2 hflushed
  · intro a hflushed hready
    have hnext : (Course.start.run (turns ++ [⟨.shutdown, a⟩])).transport =
        ((Course.start.run turns).transport.shutdown a).2.1 := by
      rw [Course.run, List.foldl_append]
      rfl
    apply finished_of_gone (Course.staged _).2
    rw [hnext]
    apply Transport.shutdown_of_ne_pending hready
    rw [← hnext]
    intro husable
    exact (Course.usable_run.mp husable).2 hflushed
  · intro hfinished a
    rw [gone_of_finished hstage hfinished]
    rfl

/-- A channel that takes everything, but for what is said of its flush and of two steps. -/
def sampleAnswers (flush : Polled Unit) (sendEnd disconnect : Poll (Except String Unit)) :
    ChannelAnswers where
  read := fun _ => .pending
  write := fun octets => .ready (.ok octets.length)
  flush := flush
  farewell
    | .sendEnd => sendEnd
    | .closeChannel => .ready (.ok ())
    | .disconnect => disconnect

def sampleTurns : List Turn :=
  [⟨.shutdown, sampleAnswers .pending .pending .pending⟩,
    ⟨.write [1], sampleAnswers .pending .pending .pending⟩,
    ⟨.shutdown, sampleAnswers (.ready (.ok ())) .pending .pending⟩,
    ⟨.write [1], sampleAnswers (.ready (.ok ())) .pending .pending⟩,
    ⟨.shutdown, sampleAnswers .pending (.ready (.ok ())) (.ready (.error "gone"))⟩,
    ⟨.shutdown, sampleAnswers (.ready (.ok ())) (.ready (.ok ())) (.ready (.ok ()))⟩]

example : (Course.start.run sampleTurns).log =
    [(.flush, .pending), (.write [1], .succeeded), (.flush, .succeeded),
      (.farewell .sendEnd, .pending), (.resume .sendEnd, .succeeded),
      (.farewell .closeChannel, .succeeded), (.farewell .disconnect, .failed)] := by
  decide

end NetconfClient.Ssh
