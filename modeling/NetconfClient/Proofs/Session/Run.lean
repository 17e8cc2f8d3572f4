/-
  NetconfClient/Proofs/Session/Run.lean
  =====================================
  **Runs of a session, in any order of moves.**

  A run keeps its history, every move with the state that it was made in.  The
  registry is the replay of the operations in the history (`Run.registry_eq`).
-/
import NetconfClient.Proofs.Session.Move

namespace NetconfClient.Session

open Text

/-! ## 1. Histories -/

/-- Moves with the states that they were made in, the first one first. -/
abbrev History := List (System × Move)

/-- A run from a state, with its history. -/
inductive Run (s₀ : System) : History → System → Prop where
  | nil : Run s₀ [] s₀
  | snoc {history : History} {s t : System} {move : Move} (before : Run s₀ history s)
    (step : s.perform move = some t) : Run s₀ (history ++ [(s, move)]) t

namespace Run

variable {s₀ s t : System} {history before behind : History} {move : Move}

theorem single (h : s.perform move = some t) : Run s [(s, move)] t := .snoc .nil h

theorem append (h : Run s₀ before s) (h' : Run s behind t) : Run s₀ (before ++ behind) t := by
  induction h' with
  | nil => rwa [List.append_nil]
  | snoc _ hstep ih =>
    rw [← List.append_assoc]
    exact .snoc ih hstep

/-- A run passes through every state of its history. -/
theorem split (h : Run s₀ (before ++ (s, move) :: behind) t) :
    Run s₀ before s ∧ ∃ u, s.perform move = some u ∧ Run u behind t := by
  generalize hwhole : before ++ (s, move) :: behind = history at h
  induction h generalizing behind with
  | nil => simp at hwhole
  | @snoc earlier v w last hrun hstep ih =>
    -- the move in question is the last one of the run, or lies in the run before
    rcases List.eq_nil_or_concat behind with rfl | ⟨init, e, rfl⟩
    · obtain ⟨rfl, hlast⟩ := List.append_inj' hwhole rfl
      obtain ⟨rfl, rfl⟩ := Prod.mk.inj (List.cons.inj hlast).1
      exact ⟨hrun, w, hstep, .nil⟩
    · rw [List.concat_eq_append, ← List.cons_append, ← List.append_assoc] at hwhole
      obtain ⟨hinit, hlast⟩ := List.append_inj' hwhole rfl
      obtain rfl : e = (v, last) := (List.cons.inj hlast).1
      obtain ⟨hbefore, u, hu, hrest⟩ := ih hinit
      refine ⟨hbefore, u, hu, ?_⟩
      rw [List.concat_eq_append]
      exact .snoc hrest hstep

end Run

namespace System

/-- The history of moves and the state behind them, if all of them can be made. -/
def trace (s : System) : List Move → Option (History × System)
  | [] => some ([], s)
  | move :: moves =>
    (s.perform move).bind fun t =>
      (trace t moves).map fun (history, u) => ((s, move) :: history, u)

theorem run_of_trace {s t : System} {moves : List Move} {history : History}
    (h : s.trace moves = some (history, t)) : Run s history t := by
  induction moves generalizing s history with
  | nil =>
    cases h
    exact .nil
  | cons move moves ih =>
    obtain ⟨u, hu, hrest⟩ := Option.bind_eq_some_iff.mp h
    obtain ⟨⟨later, v⟩, hlater, heq⟩ := Option.map_eq_some_iff.mp hrest
    cases heq
    exact (Run.single hu).append (ih hlater)

/-- Moves with which a session that has just started opens, on a link without faults. -/
def opening : List Move :=
  [.begin .greet, .step (.call 0),
    .link (Link.fresh.arrive (Framing.endOfMessage.encode
      "<hello><capabilities><capability>:base</capability></capabilities></hello>")),
    .step .receiver, .step .receiver, .step .receiver, .step (.call 0), .step (.call 0)]

end System

/-! ## 2. The registry of a run -/

/-- The operations on the registry, in the order of the moves. -/
def History.ops (history : History) : List Registry.Op :=
  history.flatMap fun e => (e.1.op? e.2).toList

theorem History.ops_cons (e : System × Move) (history : History) :
    History.ops (e :: history) = (e.1.op? e.2).toList ++ history.ops := rfl

theorem History.ops_append (before behind : History) :
    History.ops (before ++ behind) = before.ops ++ behind.ops :=
  List.flatMap_append

namespace Run

variable {s₀ s t : System} {history : History}

/-- **The registry is the replay of the history.** -/
theorem registry_eq (h : Run s₀ history t) : t.registry = s₀.registry.replay history.ops := by
  induction h with
  | nil => rfl
  | @snoc history s u move hrun hstep ih =>
    rw [System.registry_perform hstep, ih, History.ops_append, Registry.replay, Registry.replay,
      Registry.replay, List.foldl_append]
    simp [History.ops]

end Run

/-- The first move that settles a request, behind moves that do not. -/
theorem History.exists_first_settling {history : History} {id : String} {o : Outcome}
    (h : history.ops.findSome? (Registry.settlement id) = some o) :
    ∃ (quiet : History) (s : System) (move : Move) (rest : History) (op : Registry.Op),
      history = quiet ++ (s, move) :: rest ∧
        quiet.ops.findSome? (Registry.settlement id) = none ∧
        s.op? move = some op ∧ Registry.settlement id op = some o := by
  induction history with
  | nil => cases h
  | cons e history ih =>
    have hhere : (e.1.op? e.2).toList.findSome? (Registry.settlement id) =
        (e.1.op? e.2).bind (Registry.settlement id) := by
      cases e.1.op? e.2 <;> simp
    rw [History.ops_cons, List.findSome?_append, hhere] at h
    cases hsettles : (e.1.op? e.2).bind (Registry.settlement id) with
    | none =>
      rw [hsettles, Option.none_or] at h
      obtain ⟨quiet, s, move, rest, op, rfl, hquiet, hfirst⟩ := ih h
      refine ⟨e :: quiet, s, move, rest, op, rfl, ?_, hfirst⟩
      rw [History.ops_cons, List.findSome?_append, hhere, hsettles, hquiet]
      rfl
    | some o' =>
      rw [hsettles, Option.some_or] at h
      obtain ⟨op, hop, ho⟩ := Option.bind_eq_some_iff.mp hsettles
      exact ⟨[], e.1, e.2, history, op, rfl, rfl, hop, ho.trans h⟩

/-! ## 3. Runs from the start -/

namespace Run

variable {config : Config} {own : CapabilitySet} {link : Link} {now : Duration} {s : System}
  {history : History}

theorem numbered_of_start (h : Run (.start config own link now) history s) : s.Numbered := by
  induction h with
  | nil => exact fun _ _ => rfl
  | snoc _ hstep ih => exact ih.perform hstep

theorem wellFormed_of_start (h : Run (.start config own link now) history s) :
    s.registry.WellFormed := by
  rw [h.registry_eq]
  exact Registry.wellFormed_empty.replay history.ops

end Run

namespace System

/-- A state that a session can come to. -/
def Reachable (s : System) : Prop :=
  ∃ config own link now history, Run (start config own link now) history s

end System

end NetconfClient.Session
