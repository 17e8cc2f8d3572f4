/-
  NetconfClient/Proofs/Session/Teardown.lean
  ==========================================
  **A session is torn down once.**

  A teardown has two halves, and any task can be the first to begin one: closing
  the session, and failing what is outstanding.  `Torn` says how far a session
  has come with it: it is whole, or one task alone still has to take the second
  half, or that is done.  Every move keeps this (`Torn.perform`), so the second
  half is taken at most once, by the task that closed the session and with its
  fault.
-/
import NetconfClient.Proofs.Session.Run

namespace NetconfClient.Session

open Text

/-! ## 1. Moves and teardowns -/

/-- Nothing comes behind the last phase. -/
theorem Phase.eq_closed_of_rank_le {p : Phase} (h : Phase.closed.rank ≤ p.rank) : p = .closed := by
  revert h
  cases p <;> simp [rank]

namespace System

variable {s t : System} {move : Move}

theorem op?_of_teardown {task : Task} {teardown : Teardown}
    (h : s.teardown? task = some teardown) : s.op? (.step task) = teardown.op? := by
  cases task with
  | writer =>
    rw [op?, show s.writer.teardown? = some teardown from h]
    rfl
  | receiver =>
    rw [teardown?] at h
    rw [op?]
    cases hreceiver : s.receiver with
    | tearing td =>
      rw [hreceiver] at h
      cases h
      rfl
    | _ =>
      rw [hreceiver] at h
      cases h
  | call number =>
    rw [teardown?] at h
    obtain ⟨stage, hstage, htd⟩ := Option.bind_eq_some_iff.mp h
    rw [op?, hstage]
    cases stage
    case refuseTeardown | closeTeardown | dropTeardown => cases htd; rfl
    all_goals cases htd

/-- A fault ends the session only through the second half of a teardown. -/
theorem tearing_of_op? {fault : Fault} (h : s.op? move = some (.fail fault)) :
    ∃ task, move = .step task ∧ s.teardown? task = some (.fail fault) := by
  cases does_of_op? h with
  | fail htask => exact ⟨_, rfl, htask⟩

/-- Outside the steps of tasks no teardown goes on. -/
theorem teardown?_perform (hs : s.Numbered) (h : s.perform move = some t)
    (hmove : ∀ task, move ≠ .step task) :
    t.phase = s.phase ∧ ∀ task, t.teardown? task = s.teardown? task := by
  cases move with
  | step task => exact absurd rfl (hmove task)
  | begin stage =>
    rw [perform] at h
    split at h
    · next hentry =>
      cases h
      refine ⟨rfl, fun task => ?_⟩
      cases task with
      | writer => rfl
      | receiver => rfl
      | call number =>
        by_cases hn : number = s.begun
        · subst hn
          have hquiet : stage.teardown? = none := by
            cases stage
            case refuseTeardown | closeTeardown | dropTeardown => cases hentry
            all_goals rfl
          rw [teardown?, teardown?, hs.lookup_begin stage, hs s.begun (Nat.le_refl _)]
          exact hquiet
        · rw [teardown?, teardown?, lookup_begin_of_ne stage hn]
    · cases h
  | elapse span => cases h; exact ⟨rfl, fun task => by cases task <;> rfl⟩
  | link link => cases h; exact ⟨rfl, fun task => by cases task <;> rfl⟩
  | subscribe => cases h; exact ⟨rfl, fun task => by cases task <;> rfl⟩
  | unsubscribe stream => cases h; exact ⟨rfl, fun task => by cases task <;> rfl⟩

/-- A teardown that has begun can always go on. -/
theorem exists_step_of_teardown {task : Task} {teardown : Teardown}
    (h : s.teardown? task = some teardown) : ∃ t, s.step task = some t := by
  rcases htear : s.tear teardown with ⟨u, after⟩
  cases task with
  | writer =>
    have hwriter : s.writer = .tearing teardown := by
      rw [teardown?] at h
      revert h
      cases s.writer <;> simp [Writer.teardown?]
    rw [step, stepWriter, hwriter]
    simp only [Writer.waits, Bool.and_false, Bool.false_eq_true, if_false, workWriter, hwriter,
      htear]
    cases after <;> exact ⟨_, rfl⟩
  | receiver =>
    have hreceiver : s.receiver = .tearing teardown := by
      rw [teardown?] at h
      revert h
      cases s.receiver <;> simp [Receiver.teardown?]
    have hreading : (s.receiver == .reading) = false := by
      rw [hreceiver]
      rfl
    rw [step, stepReceiver, hreading]
    simp only [Bool.and_false, Bool.false_eq_true, if_false, workReceiver, hreceiver, htear]
    cases after <;> exact ⟨_, rfl⟩
  | call number =>
    obtain ⟨stage, hstage, htd⟩ := Option.bind_eq_some_iff.mp h
    have hstep : ∃ r, s.stepStage stage = some r := by
      cases stage
      case refuseTeardown | closeTeardown | dropTeardown =>
        cases htd
        simp only [stepStage, htear]
        cases after <;> exact ⟨_, rfl⟩
      all_goals cases htd
    obtain ⟨⟨v, next⟩, hv⟩ := hstep
    simp only [step, stepCall, hstage, hv]
    cases next <;> exact ⟨_, rfl⟩

/-- **No phase is left for an earlier one.** -/
theorem rank_le_perform (h : s.perform move = some t) : s.phase.rank ≤ t.phase.rank := by
  cases move with
  | step task =>
    have hturn := turn_step h
    cases htask : s.teardown? task with
    | none =>
      rw [htask] at hturn
      exact hturn.1
    | some teardown =>
      rw [htask] at hturn
      rw [hturn.1]
      cases teardown with
      | close fault => exact Phase.rank_le_advance s.phase .closed
      | fail fault => exact Nat.le_refl _
  | _ =>
    have hphase : t.phase = s.phase := by rw [perform_frame h nofun]
    exact Nat.le_of_eq (congrArg Phase.rank hphase.symm)

end System

/-! ## 2. How far a teardown has come -/

/-- The faults that have ended a session, one for each second half of a teardown. -/
def History.faults (history : History) : List Fault := history.ops.filterMap Registry.Op.fault?

/-- The task closed the session, and with that fault. -/
def History.ClosedBy (history : History) (task : System.Task) (fault : Fault) : Prop :=
  ∃ s, (s, .step task) ∈ history ∧ s.phase ≠ .closed ∧ s.teardown? task = some (.close fault)

/-- How far the teardown of a session has come. -/
inductive Torn (history : History) (s : System) : Prop where
  /-- Nobody has closed the session. -/
  | whole (hphase : s.phase ≠ .closed) (hregistry : s.registry.closed = false)
    (hfaults : history.faults = []) (hnobody : ∀ task fault, s.teardown? task ≠ some (.fail fault))
  /-- The task that has closed the session, and no other, is at the second half. -/
  | half (task : System.Task) (fault : Fault) (hphase : s.phase = .closed)
    (hregistry : s.registry.closed = false) (hfaults : history.faults = [])
    (htask : s.teardown? task = some (.fail fault))
    (hothers : ∀ other f, s.teardown? other = some (.fail f) → other = task)
    (hclosed : history.ClosedBy task fault)
  /-- Both halves are done. -/
  | done (task : System.Task) (fault : Fault) (hphase : s.phase = .closed)
    (hregistry : s.registry.closed = true) (hfaults : history.faults = [fault])
    (hnobody : ∀ other f, s.teardown? other ≠ some (.fail f))
    (hclosed : history.ClosedBy task fault)

namespace Torn

variable {history : History} {s t : System} {move : Move}

theorem closedBy_snoc {task : System.Task} {fault : Fault} (h : history.ClosedBy task fault)
    (e : System × Move) : History.ClosedBy (history ++ [e]) task fault := by
  obtain ⟨u, hmem, hrest⟩ := h
  exact ⟨u, List.mem_append_left [e] hmem, hrest⟩

theorem faults_snoc (history : History) (s : System) (move : Move) :
    History.faults (history ++ [(s, move)]) =
      history.faults ++ ((s.op? move).bind Registry.Op.fault?).toList := by
  rw [History.faults, History.ops_append, List.filterMap_append]
  cases hop : s.op? move with
  | none => simp [hop, History.faults, History.ops]
  | some op => cases hfault : op.fault? <;> simp [hop, hfault, History.faults, History.ops]

theorem closed_perform (h : s.perform move = some t) :
    t.registry.closed =
      (s.registry.closed || ((s.op? move).bind Registry.Op.fault?).isSome) := by
  rw [System.registry_perform h]
  cases s.op? move with
  | none => simp [Registry.replay]
  | some op => exact Registry.closed_apply s.registry op

/-- A move that does nothing to a teardown leaves it where it is. -/
theorem keep (h : Torn history s) (hmove : s.perform move = some t)
    (hphase : t.phase = .closed ↔ s.phase = .closed)
    (hop : (s.op? move).bind Registry.Op.fault? = none)
    (htasks : ∀ task fault,
      t.teardown? task = some (.fail fault) ↔ s.teardown? task = some (.fail fault)) :
    Torn (history ++ [(s, move)]) t := by
  have hsame : t.registry.closed = s.registry.closed := by
    rw [closed_perform hmove, hop, Option.isSome_none, Bool.or_false]
  have hfaults : History.faults (history ++ [(s, move)]) = history.faults := by
    rw [faults_snoc, hop, Option.toList_none, List.append_nil]
  cases h with
  | whole hopen hregistry hnone hnobody =>
    exact .whole (fun hc => hopen (hphase.mp hc)) (hsame.trans hregistry) (hfaults.trans hnone)
      fun task fault ht => hnobody task fault ((htasks task fault).mp ht)
  | half task fault hclosed hregistry hnone htask hothers hby =>
    exact .half task fault (hphase.mpr hclosed) (hsame.trans hregistry) (hfaults.trans hnone)
      ((htasks task fault).mpr htask) (fun other f ht => hothers other f ((htasks other f).mp ht))
      (closedBy_snoc hby _)
  | done task fault hclosed hregistry hone hnobody hby =>
    exact .done task fault (hphase.mpr hclosed) (hsame.trans hregistry) (hfaults.trans hone)
      (fun other f ht => hnobody other f ((htasks other f).mp ht)) (closedBy_snoc hby _)

/-- The first half of a teardown: whoever comes first closes the session. -/
theorem close {task : System.Task} {fault : Fault} (h : Torn history s)
    (hmove : s.perform (.step task) = some t) (htask : s.teardown? task = some (.close fault))
    (hturn : System.Turn s t (some (.close fault)) (t.teardown? task)) :
    Torn (history ++ [(s, .step task)]) t := by
  obtain ⟨hphase, hafter⟩ := hturn
  rw [show (s.tear (.close fault)).1.phase = .closed from Phase.advance_closed s.phase] at hphase
  have hop : (s.op? (.step task)).bind Registry.Op.fault? = none := by
    rw [System.op?_of_teardown htask]
    rfl
  by_cases hs : s.phase = .closed
  · -- it comes too late and has nothing more to do
    rw [System.tear, if_pos hs] at hafter
    refine h.keep hmove ⟨fun _ => hs, fun _ => hphase⟩ hop fun other f => ?_
    by_cases hother : other = task
    · rw [hother, hafter, htask]
      simp
    · rw [System.teardown?_step_of_ne hmove hother]
  · -- it closes the session, and nobody else is at the second half
    rw [System.tear, if_neg hs] at hafter
    cases h with
    | whole hopen hregistry hnone hnobody =>
      refine .half task fault hphase ?_ ?_ hafter ?_ ?_
      · rw [closed_perform hmove, hop, hregistry]
        rfl
      · rw [faults_snoc, hop, hnone]
        rfl
      · intro other f ht
        by_contra hother
        rw [System.teardown?_step_of_ne hmove hother] at ht
        exact hnobody other f ht
      · exact ⟨s, List.mem_append_right _ List.mem_cons_self, hs, htask⟩
    | half _ _ hclosed => exact absurd hclosed hs
    | done _ _ hclosed => exact absurd hclosed hs

/-- The second half of a teardown. -/
theorem fail {task : System.Task} {fault : Fault} (h : Torn history s)
    (hmove : s.perform (.step task) = some t) (htask : s.teardown? task = some (.fail fault))
    (hturn : System.Turn s t (some (.fail fault)) (t.teardown? task)) :
    Torn (history ++ [(s, .step task)]) t := by
  obtain ⟨hphase, hafter⟩ := hturn
  have hop : (s.op? (.step task)).bind Registry.Op.fault? = some fault := by
    rw [System.op?_of_teardown htask]
    rfl
  cases h with
  | whole hopen hregistry hnone hnobody => exact absurd htask (hnobody task fault)
  | half first cause hclosed hregistry hnone hfirst hothers hby =>
    -- the task that is at the second half is the one that closed the session
    obtain rfl := hothers task fault htask
    obtain rfl : cause = fault := by
      rw [hfirst] at htask
      cases htask
      rfl
    refine .done task cause (hphase.trans hclosed) ?_ ?_ ?_ (closedBy_snoc hby _)
    · rw [closed_perform hmove, hop]
      simp
    · rw [faults_snoc, hop, hnone]
      rfl
    · intro other f ht
      by_cases hother : other = task
      · rw [hother, hafter] at ht
        cases ht
      · rw [System.teardown?_step_of_ne hmove hother] at ht
        exact hother (hothers other f ht)
  | done _ _ _ _ _ hnobody => exact absurd htask (hnobody task fault)

/-- **Every move keeps a session torn down once at most.** -/
theorem perform (h : Torn history s) (hs : s.Numbered) (hmove : s.perform move = some t) :
    Torn (history ++ [(s, move)]) t := by
  have hquiet : (∀ fault, s.op? move ≠ some (.fail fault)) →
      (s.op? move).bind Registry.Op.fault? = none := by
    intro hop
    cases heq : s.op? move with
    | none => rfl
    | some op =>
      cases op with
      | fail fault => exact absurd heq (hop fault)
      | _ => rfl
  -- a step is told by the teardown that its task is at; other moves do nothing to teardowns
  by_cases hstep : ∃ task, move = .step task
  · obtain ⟨task, rfl⟩ := hstep
    have hturn := System.turn_step hmove
    cases htask : s.teardown? task with
    | none =>
      rw [htask] at hturn
      obtain ⟨hrank, hclosed, hafter⟩ := hturn
      refine h.keep hmove ⟨hclosed, fun hs' => ?_⟩ (hquiet fun fault hop => ?_) fun other f => ?_
      · exact Phase.eq_closed_of_rank_le (hs' ▸ hrank)
      · obtain ⟨other, heq, hother⟩ := System.tearing_of_op? hop
        cases heq
        rw [htask] at hother
        cases hother
      · by_cases hother : other = task
        · rw [hother, htask]
          exact ⟨fun ht => absurd ht (hafter f), nofun⟩
        · rw [System.teardown?_step_of_ne hmove hother]
    | some teardown =>
      rw [htask] at hturn
      cases teardown with
      | close fault => exact h.close hmove htask hturn
      | fail fault => exact h.fail hmove htask hturn
  · rw [not_exists] at hstep
    obtain ⟨hphase, htasks⟩ := System.teardown?_perform hs hmove hstep
    refine h.keep hmove (by rw [hphase]) (hquiet fun fault hop => ?_) fun task f => by rw [htasks]
    obtain ⟨task, heq, -⟩ := System.tearing_of_op? hop
    exact hstep task heq

theorem run {config : Config} {own : CapabilitySet} {link : Link} {now : Duration}
    (h : Run (.start config own link now) history s) : Torn history s := by
  induction h with
  | nil =>
    refine .whole nofun rfl rfl fun task fault => ?_
    cases task <;> nofun
  | snoc before hstep ih => exact ih.perform before.numbered_of_start hstep

end Torn

namespace Run

variable {history later : History} {s₀ s t : System}

theorem rank_le (h : Run s later t) : s.phase.rank ≤ t.phase.rank := by
  induction h with
  | nil => exact Nat.le_refl _
  | snoc _ hstep ih => exact Nat.le_trans ih (System.rank_le_perform hstep)

theorem closed_of_closed (h : Run s later t) (hs : s.registry.closed = true) :
    t.registry.closed = true := by
  induction h with
  | nil => exact hs
  | snoc _ hstep ih => rw [Torn.closed_perform hstep, ih, Bool.true_or]

end Run

end NetconfClient.Session
