/-
  NetconfClient/Proofs/Session/Move.lean
  ======================================
  **What can happen to a session, and what it changes.**

  A move is a step of a task, the beginning of a call, or something that happens
  outside: time passes, the link changes, somebody subscribes or stops to
  listen.

  What a move can do is said here once, so that no invariant has to look into
  the steps again: which fields a task can change, which operation it carries
  out on the registry (`registry_perform`), what it does to the phase and to a
  teardown (`turn_step`), and what becomes of a call (`lookup_perform`).
-/
import NetconfClient.Proofs.Dispatch.Trace
import NetconfClient.Session.System

namespace NetconfClient.Session

open Text

/-! ## 1. Moves -/

/-- Whether calls begin at a stage: connecting, sending, closing and going away. -/
def Stage.isEntry : Stage → Bool
  | greet | ifOpen _ _ | close | drop .closed => true
  | _ => false

/-- What can happen next. -/
inductive Move where
  | step (task : System.Task)
  | begin (stage : Stage)
  | elapse (span : Duration)
  /-- The peer or the network changes the link. -/
  | link (link : Link)
  | subscribe
  | unsubscribe (stream : Nat)
  deriving DecidableEq, Repr

/-- How many calls begin with a move. -/
def Move.begins : Move → Nat
  | begin _ => 1
  | _ => 0

namespace System

/-- The state after a move, if it can be made. -/
def perform (s : System) : Move → Option System
  | .step task => s.step task
  | .begin stage => if stage.isEntry then some (s.begin stage) else none
  | .elapse span => some (s.elapse span)
  | .link link => some { s with link := link }
  | .subscribe => some { s with registry := s.registry.apply .subscribe }
  | .unsubscribe stream => some { s with registry := s.registry.apply (.unsubscribe stream) }

end System

namespace System

variable {s t : System} {move : Move}

/-! ## 2. The stages of a call -/

/-- A step of a call goes on or ends; nothing else happens to the calls. -/
theorem stepCall_cases {n : Nat} (h : s.stepCall n = some t) :
    ∃ stage u next, s.calls.lookup n = some stage ∧ s.stepStage stage = some (u, next) ∧
      t = match next with
        | .goOn later => { u with calls := setStage n later u.calls }
        | .finish result =>
          { u with calls := u.calls.filter (·.1 != n), results := (n, result) :: u.results } := by
  rw [stepCall] at h
  cases hstage : s.calls.lookup n with
  | none => simp [hstage] at h
  | some stage =>
    rw [hstage] at h
    dsimp only at h
    cases hstep : s.stepStage stage with
    | none => simp [hstep] at h
    | some r =>
      obtain ⟨u, next⟩ := r
      rw [hstep] at h
      refine ⟨stage, u, next, rfl, hstep, ?_⟩
      cases next with
      | goOn later => exact (Option.some.inj h).symm
      | finish result => exact (Option.some.inj h).symm

theorem lookup_setStage_self {n : Nat} {stage later : Stage} {calls : List (Nat × Stage)}
    (h : calls.lookup n = some stage) : (setStage n later calls).lookup n = some later := by
  induction calls with
  | nil => simp at h
  | cons c calls ih =>
    obtain ⟨m, st⟩ := c
    by_cases hm : m = n
    · simp [setStage, hm]
    · rw [List.lookup_cons, beq_false_of_ne (Ne.symm hm)] at h
      have hmap : setStage n later ((m, st) :: calls) = (m, st) :: setStage n later calls := by
        simp [setStage, hm]
      rw [hmap, List.lookup_cons, beq_false_of_ne (Ne.symm hm)]
      exact ih h

theorem lookup_setStage_of_ne {n m : Nat} (later : Stage) (calls : List (Nat × Stage))
    (h : m ≠ n) : (setStage n later calls).lookup m = calls.lookup m := by
  induction calls with
  | nil => rfl
  | cons c calls ih =>
    obtain ⟨k, st⟩ := c
    by_cases hk : k = n
    · have hmap : setStage n later ((k, st) :: calls) = (n, later) :: setStage n later calls := by
        simp [setStage, hk]
      rw [hmap, List.lookup_cons, List.lookup_cons, beq_false_of_ne h,
        beq_false_of_ne (hk ▸ h), ih]
    · have hmap : setStage n later ((k, st) :: calls) = (k, st) :: setStage n later calls := by
        simp [setStage, hk]
      rw [hmap, List.lookup_cons, List.lookup_cons, ih]

end System

/-! ## 3. Teardowns -/

/-- What the registry has to do with half a teardown. -/
def Teardown.op? : Teardown → Option Registry.Op
  | close _ => none
  | fail fault => some (.fail fault)

/-- The half of a teardown that a stage is for. -/
def Stage.teardown? : Stage → Option Teardown
  | refuseTeardown teardown _ | closeTeardown teardown | dropTeardown teardown _ => some teardown
  | _ => none

def System.Next.teardown? : System.Next → Option Teardown
  | goOn stage => stage.teardown?
  | finish _ => none

/-- The half of a teardown that the writer is at. -/
def Writer.teardown? : Writer → Option Teardown
  | tearing teardown => some teardown
  | _ => none

def Receiver.teardown? : Receiver → Option Teardown
  | tearing teardown => some teardown
  | _ => none

/-- What the receiver does to the registry. -/
def Receiver.op? : Receiver → Option Registry.Op
  | routing message =>
    match Inbound.classify message with
    | .ok (.reply id) => some (.reply id message)
    | .ok .notification => some (.notify message)
    | _ => none
  | receiver => receiver.teardown?.bind Teardown.op?

/-- What a call at a stage does to the registry. -/
def Stage.op? : Stage → Option Registry.Op
  | register id _ _ => some (.register id)
  | withdraw purpose _ => purpose.id?.map .cancel
  | stage => stage.teardown?.bind Teardown.op?

namespace System

variable {s t : System} {move : Move}

/-- What a step does to the phase, and what is left then of the teardown that its task had
    at hand.  Only the first half of a teardown closes a session. -/
def Turn (s t : System) (before after : Option Teardown) : Prop :=
  match before with
  | some teardown => t.phase = (s.tear teardown).1.phase ∧ after = (s.tear teardown).2
  | none =>
    s.phase.rank ≤ t.phase.rank ∧ (t.phase = .closed → s.phase = .closed) ∧
      ∀ fault, after ≠ some (.fail fault)

theorem turn_of_phase_eq {after : Option Teardown} (h : t.phase = s.phase)
    (hafter : ∀ fault, after ≠ some (.fail fault)) : Turn s t none after :=
  ⟨Nat.le_of_eq (congrArg Phase.rank h.symm), fun hc => h ▸ hc, hafter⟩

theorem turn_advance {p : Phase} {after : Option Teardown} (hp : p ≠ .closed)
    (h : t.phase = s.phase.advance p) (hafter : ∀ fault, after ≠ some (.fail fault)) :
    Turn s t none after := by
  refine ⟨h ▸ Phase.rank_le_advance s.phase p, fun hc => ?_, hafter⟩
  rw [h, Phase.advance] at hc
  split at hc
  · exact absurd hc hp
  · exact hc

theorem registry_tear (s : System) (teardown : Teardown) :
    (s.tear teardown).1.registry = s.registry.replay teardown.op?.toList := by
  cases teardown <;> rfl

theorem stepStage_of_teardown {stage : Stage} {next : Next} {teardown : Teardown}
    (hstage : stage.teardown? = some teardown) (h : s.stepStage stage = some (t, next)) :
    (t = (s.tear teardown).1 ∨ t = (s.tear teardown).1.detach) ∧
      next.teardown? = (s.tear teardown).2 := by
  cases stage
  case refuseTeardown td fault =>
    cases hstage
    simp only [stepStage] at h
    split at h
    · next u rest heq =>
      cases h
      rw [heq]
      exact ⟨Or.inl rfl, rfl⟩
    · next u heq =>
      cases h
      rw [heq]
      exact ⟨Or.inr rfl, rfl⟩
  case closeTeardown td =>
    cases hstage
    simp only [stepStage] at h
    split at h
    · next u rest heq =>
      cases h
      rw [heq]
      exact ⟨Or.inl rfl, rfl⟩
    · next u heq =>
      cases h
      rw [heq]
      exact ⟨Or.inl rfl, rfl⟩
  case dropTeardown td result =>
    cases hstage
    simp only [stepStage] at h
    split at h
    · next u rest heq =>
      cases h
      rw [heq]
      exact ⟨Or.inl rfl, rfl⟩
    · next u heq =>
      cases h
      rw [heq]
      exact ⟨Or.inl rfl, rfl⟩
  all_goals cases hstage

/-- What the stages of calls can change. -/
theorem stepStage_frame {stage : Stage} {next : Next} (h : s.stepStage stage = some (t, next)) :
    t = { s with
      phase := t.phase
      registry := t.registry
      queue := t.queue
      writerStops := t.writerStops
      receiverStops := t.receiverStops
      established := t.established } := by
  cases hstage : stage.teardown? with
  | some teardown =>
    rcases (stepStage_of_teardown hstage h).1 with rfl | rfl
    · cases teardown <;> rfl
    · cases teardown <;> rfl
  | none =>
    -- every branch of every other stage says itself what it changes
    cases stage
    case refuseTeardown | closeTeardown | dropTeardown => cases hstage
    all_goals
      simp only [stepStage] at h
      repeat' split at h
    all_goals cases h
    all_goals rfl

/-- What a step of a call can change. -/
theorem stepCall_frame {n : Nat} (h : s.stepCall n = some t) :
    t = { s with
      phase := t.phase
      registry := t.registry
      queue := t.queue
      writerStops := t.writerStops
      receiverStops := t.receiverStops
      established := t.established
      calls := t.calls
      results := t.results } := by
  obtain ⟨stage, u, next, -, hstep, rfl⟩ := stepCall_cases h
  rw [stepStage_frame hstep]
  cases next <;> rfl

theorem registry_stepStage {stage : Stage} {next : Next}
    (h : s.stepStage stage = some (t, next)) :
    t.registry = s.registry.replay stage.op?.toList := by
  cases hstage : stage.teardown? with
  | some teardown =>
    have hop : stage.op? = teardown.op? := by
      cases stage
      case refuseTeardown | closeTeardown | dropTeardown => cases hstage; rfl
      all_goals cases hstage
    rw [hop]
    rcases (stepStage_of_teardown hstage h).1 with rfl | rfl
    · exact registry_tear s teardown
    · exact registry_tear s teardown
  | none =>
    cases stage
    case refuseTeardown | closeTeardown | dropTeardown => cases hstage
    case register id purpose message =>
      simp only [stepStage] at h
      split at h
      · next heq =>
        cases h
        simp [Stage.op?, Registry.replay, Registry.apply, heq]
      · next heq =>
        cases h
        simp [Stage.op?, Registry.replay, Registry.apply, heq]
    case withdraw purpose fault =>
      simp only [stepStage] at h
      split at h
      · next heq =>
        cases h
        simp [Stage.op?, Registry.replay, Registry.apply, heq]
      · next heq =>
        cases h
        simp [Stage.op?, Registry.replay, heq]
    all_goals
      simp only [stepStage] at h
      repeat' split at h
    all_goals cases h
    all_goals rfl

/-- What a call can come to once its message is queued or refused. -/
def Next.IsAftermath : Next → Prop
  | goOn (.drop _) | goOn (.awaitReply _ _) | goOn (.beginFarewell _) | finish _ => True
  | _ => False

theorem aftermath_refused (purpose : Purpose) (fault : Fault) :
    (refused purpose fault).IsAftermath := by
  cases purpose <;> trivial

theorem aftermath_queued (s : System) (ticket : Option Ticket) (purpose : Purpose) :
    (s.queued ticket purpose).IsAftermath := by
  cases ticket <;> cases purpose <;> trivial

theorem refused_ne {next : Next} (h : ¬ next.IsAftermath) (purpose : Purpose) (fault : Fault) :
    refused purpose fault ≠ next :=
  fun heq => h (heq ▸ aftermath_refused purpose fault)

theorem queued_ne {next : Next} (h : ¬ next.IsAftermath) (s : System) (ticket : Option Ticket)
    (purpose : Purpose) : s.queued ticket purpose ≠ next :=
  fun heq => h (heq ▸ aftermath_queued s ticket purpose)

theorem Next.IsAftermath.teardown? {next : Next} (h : next.IsAftermath) :
    next.teardown? = none := by
  cases next with
  | finish result => rfl
  | goOn stage => cases stage <;> first | rfl | cases h

theorem turn_stepStage {stage : Stage} {next : Next}
    (h : s.stepStage stage = some (t, next)) : Turn s t stage.teardown? next.teardown? := by
  cases hstage : stage.teardown? with
  | some teardown =>
    obtain ⟨ht, hnext⟩ := stepStage_of_teardown hstage h
    rcases ht with rfl | rfl
    · exact ⟨rfl, hnext⟩
    · exact ⟨rfl, hnext⟩
  | none =>
    have hrefused : ∀ purpose fault f, (refused purpose fault).teardown? ≠ some (.fail f) := by
      intro purpose fault f
      rw [(aftermath_refused purpose fault).teardown?]
      nofun
    have hqueued : ∀ ticket purpose f, (s.queued ticket purpose).teardown? ≠ some (.fail f) := by
      intro ticket purpose f
      rw [(aftermath_queued s ticket purpose).teardown?]
      nofun
    cases stage
    case refuseTeardown | closeTeardown | dropTeardown => cases hstage
    all_goals
      simp only [stepStage] at h
      repeat' split at h
    all_goals cases h
    -- what is left either keeps the phase or advances it in front of the last one
    all_goals first
      | exact turn_of_phase_eq rfl (hrefused _ _)
      | exact turn_of_phase_eq rfl (hqueued _ _)
      | exact turn_of_phase_eq rfl fun f hf => by cases hf
      | exact turn_advance (p := .opened) (by decide) rfl fun f hf => by cases hf
      | exact turn_advance (p := .closing) (by decide) rfl fun f hf => by cases hf

/-! ## 4. The writer and the receiver -/

/-- The fault with which the writer's step fails: the link refuses the octets, or refuses to
    pass on a message that has been written. -/
def writeFault? (s : System) : Move → Option String
  | .step .writer =>
    if s.writerStops then none
    else
      match s.writer with
      | .writing [] => s.link.flushFault
      | .writing (_ :: _) => s.link.writeFault
      | _ => none
  | _ => none

/-- The steps of the writer, by the place that it is at. -/
inductive WriterStep (s t : System) : Writer → Prop where
  /-- It stops, as it has been told. -/
  | stop {writer : Writer} (hstops : s.writerStops = true) (hwaits : writer.waits = true)
    (ht : t = s.endWriter) : WriterStep s t writer
  /-- It begins with the next message. -/
  | take (octets : List UInt8) (items : List Outgoing)
    (hitems : s.queue.items = .message octets :: items)
    (ht : t = { s with writer := .writing octets, queue := { s.queue with items := items } }) :
    WriterStep s t .idle
  /-- It is told to shut down. -/
  | obey (items : List Outgoing) (hitems : s.queue.items = .shutdown :: items)
    (ht : t = { s with writer := .shutting, queue := { s.queue with items := items } }) :
    WriterStep s t .idle
  /-- Nobody can tell it anything any more. -/
  | leave (hitems : s.queue.items = []) (hdetached : s.queue.detached = true)
    (ht : t = { s with writer := .shutting }) : WriterStep s t .idle
  /-- It writes some octets. -/
  | write {rest : List UInt8} (count : Nat) (link : Link)
    (hlink : link.written = s.link.written ++ rest.take count)
    (ht : t = { s with writer := .writing (rest.drop count), link := link }) :
    WriterStep s t (.writing rest)
  /-- It has written a message. -/
  | flush (ht : t = { s with writer := .idle }) : WriterStep s t (.writing [])
  /-- The link fails. -/
  | fail {rest : List UInt8} (text : String) (hfault : s.writeFault? (.step .writer) = some text)
    (ht : t = { s with writer := .tearing (.close (.io text)) }) : WriterStep s t (.writing rest)
  /-- It closes the session, and has still to fail what is outstanding. -/
  | close {teardown rest : Teardown} (hrest : (s.tear teardown).2 = some rest)
    (ht : t = { (s.tear teardown).1 with writer := .tearing rest }) :
    WriterStep s t (.tearing teardown)
  /-- Its teardown is over. -/
  | finish {teardown : Teardown} (hrest : (s.tear teardown).2 = none)
    (ht : t = (s.tear teardown).1.endWriter) : WriterStep s t (.tearing teardown)
  /-- It shuts the link down. -/
  | shut (hstops : s.writerStops = false) (ht : t = { s.endWriter with link := s.link.shutdown }) :
    WriterStep s t .shutting

/-- Every step of the writer is one of these. -/
theorem writerStep (h : s.stepWriter = some t) : WriterStep s t s.writer := by
  unfold stepWriter at h
  split at h
  · next hstop =>
    rw [Bool.and_eq_true] at hstop
    exact .stop hstop.1 hstop.2 (Option.some.inj h).symm
  · next hstop =>
    have hgoes : s.writer.waits = true → s.writerStops = false := by
      intro hwaits
      simpa [hwaits] using hstop
    unfold workWriter at h
    cases hwriter : s.writer with
    | idle =>
      rw [hwriter] at h
      dsimp only at h
      split at h
      · next octets items hitems => exact .take octets items hitems (Option.some.inj h).symm
      · next items hitems => exact .obey items hitems (Option.some.inj h).symm
      · next hitems =>
        split at h
        · next hdetached => exact .leave hitems hdetached (Option.some.inj h).symm
        · cases h
    | writing rest =>
      have hstops : s.writerStops = false := hgoes (by rw [hwriter]; rfl)
      rw [hwriter] at h
      cases rest with
      | nil =>
        dsimp only at h
        split at h
        · next text hfault =>
          refine .fail text ?_ (Option.some.inj h).symm
          simp [writeFault?, hstops, hwriter, hfault]
        · exact .flush (Option.some.inj h).symm
      | cons b bs =>
        dsimp only at h
        rw [Link.write] at h
        cases hfault : s.link.writeFault with
        | some text =>
          rw [hfault] at h
          refine .fail text ?_ (Option.some.inj h).symm
          simp [writeFault?, hstops, hwriter, hfault]
        | none =>
          rw [hfault] at h
          dsimp only at h
          split at h
          · next link hwrite =>
            split at hwrite
            · cases hwrite
            · cases hwrite
              exact .write _ _ rfl (Option.some.inj h).symm
          · next hwrite => split at hwrite <;> cases hwrite
          · cases h
    | tearing teardown =>
      rw [hwriter] at h
      dsimp only at h
      split at h
      · next u rest heq =>
        have hrest : (s.tear teardown).2 = some rest := by rw [heq]
        refine .close hrest ?_
        rw [heq]
        exact (Option.some.inj h).symm
      · next u heq =>
        refine .finish ?_ ?_
        · rw [heq]
        · rw [heq]
          exact (Option.some.inj h).symm
    | shutting =>
      have hstops : s.writerStops = false := hgoes (by rw [hwriter]; rfl)
      rw [hwriter] at h
      exact .shut hstops (Option.some.inj h).symm
    | ended =>
      rw [hwriter] at h
      cases h

/-- What a step of the writer can change, and what it does to a teardown. -/
theorem stepWriter_cases (h : s.stepWriter = some t) :
    (∃ teardown, s.writer = .tearing teardown ∧
      t = { (s.tear teardown).1 with writer := t.writer, queue := t.queue } ∧
      t.writer.teardown? = (s.tear teardown).2) ∨
    (s.writer.teardown? = none ∧
      t = { s with writer := t.writer, queue := t.queue, link := t.link } ∧
      ∀ fault, t.writer.teardown? ≠ some (.fail fault)) := by
  have hcases := writerStep h
  generalize s.writer = writer at hcases
  cases hcases with
  | close hrest ht => subst ht; exact Or.inl ⟨_, rfl, rfl, hrest.symm⟩
  | finish hrest ht => subst ht; exact Or.inl ⟨_, rfl, rfl, hrest.symm⟩
  | stop _ hwaits ht =>
    -- it is only stopped where it waits, and not in a teardown
    subst ht
    refine Or.inr ⟨?_, rfl, nofun⟩
    revert hwaits
    cases writer <;> simp [Writer.waits, Writer.teardown?]
  | fail _ _ ht => subst ht; exact Or.inr ⟨rfl, rfl, fun f hf => by cases hf⟩
  | take _ _ _ ht => subst ht; exact Or.inr ⟨rfl, rfl, nofun⟩
  | obey _ _ ht => subst ht; exact Or.inr ⟨rfl, rfl, nofun⟩
  | leave _ _ ht => subst ht; exact Or.inr ⟨rfl, rfl, nofun⟩
  | write _ _ _ ht => subst ht; exact Or.inr ⟨rfl, rfl, nofun⟩
  | flush ht => subst ht; exact Or.inr ⟨rfl, rfl, nofun⟩
  | shut _ ht => subst ht; exact Or.inr ⟨rfl, rfl, nofun⟩

/-- What a step of the writer can change. -/
theorem stepWriter_frame (h : s.stepWriter = some t) :
    t = { s with
      phase := t.phase
      registry := t.registry
      link := t.link
      queue := t.queue
      writer := t.writer } := by
  rcases stepWriter_cases h with ⟨teardown, -, ht, -⟩ | ⟨-, ht, -⟩
  · rw [ht]
    cases teardown <;> rfl
  · rw [ht]

/-- What handing a message on can change. -/
theorem route_frame (s : System) (message : String) :
    s.route message = { s with
      receiver := (s.route message).receiver
      link := (s.route message).link
      intake := (s.route message).intake
      exchange := (s.route message).exchange
      registry := (s.route message).registry } := by
  unfold route
  split
  · split <;> rfl
  · split <;> rfl
  all_goals rfl

theorem registry_route (s : System) (message : String) :
    (s.route message).registry = s.registry.replay (Receiver.routing message).op?.toList := by
  unfold route
  cases hkind : Inbound.classify message with
  | error fault => simp [Receiver.op?, hkind, Registry.replay]
  | ok kind =>
    cases kind with
    | hello =>
      simp only [Receiver.op?, hkind]
      split <;> rfl
    | reply id =>
      simp only [Receiver.op?, hkind]
      split <;> next heq => simp [Registry.replay, Registry.apply, heq]
    | notification => simp [Receiver.op?, hkind, Registry.replay, Registry.apply]
    | unexpected name => simp [Receiver.op?, hkind, Registry.replay]

theorem teardown?_route (s : System) (message : String) :
    (s.route message).receiver.teardown? = none := by
  unfold route
  split
  · split <;> rfl
  · split <;> rfl
  all_goals rfl

/-- What a step of the receiver can change, and what it does to a teardown. -/
theorem stepReceiver_cases (h : s.stepReceiver = some t) :
    (∃ teardown, s.receiver = .tearing teardown ∧
      t = { (s.tear teardown).1 with receiver := t.receiver } ∧
      t.receiver.teardown? = (s.tear teardown).2) ∨
    (s.receiver.teardown? = none ∧
      t = { s with
        receiver := t.receiver
        link := t.link
        intake := t.intake
        exchange := t.exchange
        registry := s.registry.replay s.receiver.op?.toList } ∧
      ∀ fault, t.receiver.teardown? ≠ some (.fail fault)) := by
  unfold stepReceiver at h
  split at h
  · next hstop =>
    rw [Bool.and_eq_true, beq_iff_eq] at hstop
    cases h
    rw [hstop.2]
    exact Or.inr ⟨rfl, rfl, nofun⟩
  · unfold workReceiver at h
    cases hreceiver : s.receiver with
    | reading =>
      rw [hreceiver] at h
      dsimp only at h
      split at h
      · cases h
        exact Or.inr ⟨rfl, rfl, nofun⟩
      · cases h
        exact Or.inr ⟨rfl, rfl, nofun⟩
      · cases h
        refine Or.inr ⟨rfl, rfl, fun f => ?_⟩
        dsimp only
        split <;> nofun
      · cases h
    | pulling =>
      rw [hreceiver] at h
      dsimp only at h
      split at h
      all_goals cases h
      all_goals exact Or.inr ⟨rfl, rfl, nofun⟩
    | routing message =>
      rw [hreceiver] at h
      cases h
      refine Or.inr ⟨rfl, ?_, fun f hf => ?_⟩
      · rw [← registry_route]
        exact route_frame s message
      · rw [teardown?_route] at hf
        cases hf
    | ending fault =>
      rw [hreceiver] at h
      dsimp only at h
      split at h
      all_goals cases h
      all_goals exact Or.inr ⟨rfl, rfl, fun f hf => by cases hf⟩
    | tearing teardown =>
      rw [hreceiver] at h
      dsimp only at h
      split at h
      · next u rest heq =>
        cases h
        refine Or.inl ⟨teardown, rfl, ?_, ?_⟩
        · rw [heq]
        · rw [heq]
          rfl
      · next u heq =>
        cases h
        refine Or.inl ⟨teardown, rfl, ?_, ?_⟩
        · rw [heq]
        · rw [heq]
          rfl
    | ended =>
      rw [hreceiver] at h
      cases h

/-- What a step of the receiver can change. -/
theorem stepReceiver_frame (h : s.stepReceiver = some t) :
    t = { s with
      phase := t.phase
      registry := t.registry
      link := t.link
      receiver := t.receiver
      intake := t.intake
      exchange := t.exchange } := by
  rcases stepReceiver_cases h with ⟨teardown, -, ht, -⟩ | ⟨-, ht, -⟩
  · rw [ht]
    cases teardown <;> rfl
  · rw [ht]

/-- What a move outside the steps of tasks can change. -/
theorem perform_frame (h : s.perform move = some t) (hmove : ∀ task, move ≠ .step task) :
    t = { s with
      registry := t.registry
      link := t.link
      calls := t.calls
      begun := t.begun
      now := t.now } := by
  cases move with
  | step task => exact absurd rfl (hmove task)
  | begin stage =>
    rw [perform] at h
    split at h
    · cases h
      rfl
    · cases h
  | elapse span => cases h; rfl
  | link link => cases h; rfl
  | subscribe => cases h; rfl
  | unsubscribe stream => cases h; rfl

/-! ## 5. Tasks -/

/-- The half of a teardown that a task is at. -/
def teardown? (s : System) : Task → Option Teardown
  | .writer => s.writer.teardown?
  | .receiver => s.receiver.teardown?
  | .call number => (s.calls.lookup number).bind Stage.teardown?

/-- What a move does to the registry. -/
def op? (s : System) : Move → Option Registry.Op
  | .step .writer => s.writer.teardown?.bind Teardown.op?
  | .step .receiver => s.receiver.op?
  | .step (.call number) => (s.calls.lookup number).bind Stage.op?
  | .subscribe => some .subscribe
  | .unsubscribe stream => some (.unsubscribe stream)
  | _ => none

/-- What is done to the registry, and by whom. -/
inductive Does (s : System) : Move → Registry.Op → Prop where
  | reply {id : Option String} {raw : String} (h : s.receiver = .routing raw)
    (hkind : Inbound.classify raw = .ok (.reply id)) : Does s (.step .receiver) (.reply id raw)
  | notify {raw : String} (h : s.receiver = .routing raw)
    (hkind : Inbound.classify raw = .ok .notification) : Does s (.step .receiver) (.notify raw)
  | register {number : Nat} {id : String} {purpose : Purpose} {message : String}
    (h : s.calls.lookup number = some (.register id purpose message)) :
    Does s (.step (.call number)) (.register id)
  | cancel {number : Nat} {id : String} {purpose : Purpose} {fault : Fault}
    (h : s.calls.lookup number = some (.withdraw purpose fault)) (hid : purpose.id? = some id) :
    Does s (.step (.call number)) (.cancel id)
  | fail {task : Task} {fault : Fault} (h : s.teardown? task = some (.fail fault)) :
    Does s (.step task) (.fail fault)
  | subscribe : Does s .subscribe .subscribe
  | unsubscribe (stream : Nat) : Does s (.unsubscribe stream) (.unsubscribe stream)

theorem does_of_teardown {task : Task} {teardown : Teardown} {op : Registry.Op}
    (h : s.teardown? task = some teardown) (hop : teardown.op? = some op) :
    Does s (.step task) op := by
  cases teardown with
  | close fault => cases hop
  | fail fault =>
    cases hop
    exact .fail h

theorem does_of_op? {op : Registry.Op} (h : s.op? move = some op) : Does s move op := by
  cases move with
  | step task =>
    cases task with
    | writer =>
      obtain ⟨teardown, hwriter, hop⟩ := Option.bind_eq_some_iff.mp h
      exact does_of_teardown (show s.teardown? .writer = some teardown from hwriter) hop
    | receiver =>
      rw [op?] at h
      cases hreceiver : s.receiver with
      | routing message =>
        rw [hreceiver] at h
        simp only [Receiver.op?] at h
        split at h
        · next hkind =>
          cases h
          exact .reply hreceiver hkind
        · next hkind =>
          cases h
          exact .notify hreceiver hkind
        · cases h
      | tearing teardown =>
        rw [hreceiver] at h
        have htd : s.teardown? .receiver = some teardown := by
          rw [teardown?, hreceiver]
          rfl
        exact does_of_teardown htd h
      | _ =>
        rw [hreceiver] at h
        cases h
    | call number =>
      obtain ⟨stage, hstage, hop⟩ := Option.bind_eq_some_iff.mp h
      -- only two kinds of stages use the registry apart from those of a teardown
      have htearing : ∀ teardown, stage.teardown? = some teardown →
          s.teardown? (.call number) = some teardown := by
        intro teardown htd
        rw [teardown?, hstage]
        exact htd
      cases stage
      case register id purpose message =>
        cases hop
        exact .register hstage
      case withdraw purpose cause =>
        rw [Stage.op?, Option.map_eq_some_iff] at hop
        obtain ⟨id, hid, rfl⟩ := hop
        exact .cancel hstage hid
      case refuseTeardown teardown cause => exact does_of_teardown (htearing teardown rfl) hop
      case closeTeardown teardown => exact does_of_teardown (htearing teardown rfl) hop
      case dropTeardown teardown result => exact does_of_teardown (htearing teardown rfl) hop
      all_goals cases hop
  | subscribe => cases h; exact .subscribe
  | unsubscribe stream => cases h; exact .unsubscribe stream
  | begin | elapse | link => cases h

/-- **A move does one operation on the registry or none.** -/
theorem registry_perform (h : s.perform move = some t) :
    t.registry = s.registry.replay (s.op? move).toList := by
  cases move with
  | step task =>
    cases task with
    | writer =>
      rcases stepWriter_cases h with ⟨teardown, hwriter, ht, -⟩ | ⟨hwriter, ht, -⟩
      · rw [op?, hwriter, ht]
        exact registry_tear s teardown
      · rw [op?, hwriter, ht]
        rfl
    | receiver =>
      rcases stepReceiver_cases h with ⟨teardown, hreceiver, ht, -⟩ | ⟨-, ht, -⟩
      · rw [op?, hreceiver, ht]
        exact registry_tear s teardown
      · rw [op?, ht]
    | call number =>
      obtain ⟨stage, u, next, hstage, hstep, rfl⟩ := stepCall_cases h
      have hregistry := registry_stepStage hstep
      rw [op?, hstage, Option.bind_some, ← hregistry]
      cases next <;> rfl
  | begin stage =>
    rw [perform] at h
    split at h
    · cases h
      rfl
    · cases h
  | elapse span => cases h; rfl
  | link link => cases h; rfl
  | subscribe => cases h; rfl
  | unsubscribe stream => cases h; rfl

theorem turn_step {task : Task} (h : s.step task = some t) :
    Turn s t (s.teardown? task) (t.teardown? task) := by
  cases task with
  | writer =>
    rcases stepWriter_cases h with ⟨teardown, hwriter, ht, hafter⟩ | ⟨hwriter, ht, hafter⟩
    · rw [teardown?, hwriter]
      exact ⟨by rw [ht], hafter⟩
    · rw [teardown?, hwriter]
      exact turn_of_phase_eq (by rw [ht]) hafter
  | receiver =>
    rcases stepReceiver_cases h with ⟨teardown, hreceiver, ht, hafter⟩ | ⟨hreceiver, ht, hafter⟩
    · rw [teardown?, hreceiver]
      exact ⟨by rw [ht], hafter⟩
    · rw [teardown?, hreceiver]
      exact turn_of_phase_eq (by rw [ht]) hafter
  | call number =>
    obtain ⟨stage, u, next, hstage, hstep, rfl⟩ := stepCall_cases h
    have hturn := turn_stepStage hstep
    have hcalls : u.calls = s.calls := by rw [stepStage_frame hstep]
    rw [teardown?, hstage, Option.bind_some]
    cases next with
    | goOn later =>
      have hlater : (setStage number later u.calls).lookup number = some later :=
        lookup_setStage_self (hcalls ▸ hstage)
      rw [teardown?, hlater]
      exact hturn
    | finish result =>
      have hgone : (u.calls.filter (·.1 != number)).lookup number = none :=
        Association.lookup_filter_self
      rw [teardown?, hgone]
      exact hturn

/-- A task leaves the teardowns of the others alone. -/
theorem teardown?_step_of_ne {task other : Task} (h : s.step task = some t) (hne : other ≠ task) :
    t.teardown? other = s.teardown? other := by
  cases task with
  | writer =>
    cases other with
    | writer => exact absurd rfl hne
    | receiver => rw [teardown?, teardown?, stepWriter_frame h]
    | call number => rw [teardown?, teardown?, stepWriter_frame h]
  | receiver =>
    cases other with
    | writer => rw [teardown?, teardown?, stepReceiver_frame h]
    | receiver => exact absurd rfl hne
    | call number => rw [teardown?, teardown?, stepReceiver_frame h]
  | call number =>
    obtain ⟨stage, u, next, hstage, hstep, rfl⟩ := stepCall_cases h
    have hframe := stepStage_frame hstep
    have hwriter : u.writer = s.writer := by rw [hframe]
    have hreceiver : u.receiver = s.receiver := by rw [hframe]
    have hcalls : u.calls = s.calls := by rw [hframe]
    cases other with
    | writer => cases next <;> rw [teardown?, teardown?, ← hwriter]
    | receiver => cases next <;> rw [teardown?, teardown?, ← hreceiver]
    | call m =>
      have hm : m ≠ number := fun heq => hne (congrArg Task.call heq)
      cases next with
      | goOn later =>
        rw [teardown?, teardown?, ← hcalls]
        exact congrArg (Option.bind · Stage.teardown?) (lookup_setStage_of_ne later u.calls hm)
      | finish result =>
        rw [teardown?, teardown?, ← hcalls]
        exact congrArg (Option.bind · Stage.teardown?) (Association.lookup_filter_of_ne hm)

/-- A call that has not begun is nowhere. -/
def Numbered (s : System) : Prop := ∀ number, s.begun ≤ number → s.calls.lookup number = none

theorem Numbered.lookup_begin (h : s.Numbered) (stage : Stage) :
    (s.begin stage).calls.lookup s.begun = some stage := by
  rw [begin, List.lookup_append, h s.begun (Nat.le_refl _)]
  simp

theorem lookup_begin_of_ne {number : Nat} (stage : Stage) (hne : number ≠ s.begun) :
    (s.begin stage).calls.lookup number = s.calls.lookup number := by
  rw [begin, List.lookup_append, List.lookup_cons, beq_false_of_ne hne]
  simp

/-- What becomes of a call in a move: nothing, a step of its own, or its beginning. -/
theorem lookup_perform (hs : s.Numbered) (h : s.perform move = some t) (number : Nat) :
    (move ≠ .step (.call number) ∧ t.calls.lookup number = s.calls.lookup number) ∨
    (∃ stage u next, move = .step (.call number) ∧ s.calls.lookup number = some stage ∧
      s.stepStage stage = some (u, next) ∧
      t.calls.lookup number = match next with
        | .goOn later => some later
        | .finish _ => none) ∨
    (∃ stage, move = .begin stage ∧ stage.isEntry ∧ number = s.begun ∧
      s.calls.lookup number = none ∧ t.calls.lookup number = some stage) := by
  cases move with
  | step task =>
    cases task with
    | writer => exact Or.inl ⟨by simp, by rw [stepWriter_frame h]⟩
    | receiver => exact Or.inl ⟨by simp, by rw [stepReceiver_frame h]⟩
    | call m =>
      obtain ⟨stage, u, next, hstage, hstep, rfl⟩ := stepCall_cases h
      have hcalls : u.calls = s.calls := by rw [stepStage_frame hstep]
      by_cases hm : m = number
      · subst hm
        refine Or.inr (Or.inl ⟨stage, u, next, rfl, hstage, hstep, ?_⟩)
        cases next with
        | goOn later => exact lookup_setStage_self (hcalls ▸ hstage)
        | finish result => exact Association.lookup_filter_self
      · refine Or.inl ⟨by simpa using hm, ?_⟩
        rw [← hcalls]
        cases next with
        | goOn later => exact lookup_setStage_of_ne later u.calls (Ne.symm hm)
        | finish result => exact Association.lookup_filter_of_ne (Ne.symm hm)
  | begin stage =>
    rw [perform] at h
    split at h
    · next hentry =>
      cases h
      by_cases hn : number = s.begun
      · subst hn
        exact Or.inr (Or.inr ⟨stage, rfl, hentry, rfl, hs _ (Nat.le_refl _), hs.lookup_begin stage⟩)
      · exact Or.inl ⟨by simp, lookup_begin_of_ne stage hn⟩
    · cases h
  | elapse span => cases h; exact Or.inl ⟨by simp, rfl⟩
  | link link => cases h; exact Or.inl ⟨by simp, rfl⟩
  | subscribe => cases h; exact Or.inl ⟨by simp, rfl⟩
  | unsubscribe stream => cases h; exact Or.inl ⟨by simp, rfl⟩

theorem begun_perform (h : s.perform move = some t) :
    t.begun = s.begun + move.begins := by
  cases move with
  | step task =>
    cases task with
    | writer =>
      rw [stepWriter_frame h]
      rfl
    | receiver =>
      rw [stepReceiver_frame h]
      rfl
    | call m =>
      rw [stepCall_frame h]
      rfl
  | begin stage =>
    rw [perform] at h
    split at h
    · cases h
      rfl
    · cases h
  | elapse span => cases h; rfl
  | link link => cases h; rfl
  | subscribe => cases h; rfl
  | unsubscribe stream => cases h; rfl

theorem Numbered.perform (hs : s.Numbered) (h : s.perform move = some t) : t.Numbered := by
  intro number hnumber
  have hbegun := begun_perform h
  have hle : s.begun ≤ number := by omega
  rcases lookup_perform hs h number with ⟨-, hsame⟩ | ⟨stage, u, next, -, hstage, -⟩ |
    ⟨stage, rfl, -, rfl, -⟩
  · rw [hsame]
    exact hs number hle
  · rw [hs number hle] at hstage
    cases hstage
  · rw [hbegun] at hnumber
    exact absurd hnumber (Nat.not_succ_le_self _)

end System

end NetconfClient.Session
