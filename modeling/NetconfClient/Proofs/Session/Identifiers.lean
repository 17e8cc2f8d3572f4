/-
  NetconfClient/Proofs/Session/Identifiers.lean
  =============================================
  **No two calls share an identifier.**

  Calls make up their identifiers from their numbers, and different numbers give
  different identifiers (`messageId_injective`).  So whatever stands in the
  registry under an identifier belongs to one call, and no other call registers
  it or takes it back (`Identified`).
-/
import Mathlib.Logic.Function.Defs
import NetconfClient.Proofs.Session.Run
import NetconfClient.Session.Calls

namespace NetconfClient.Session

open Text

/-! ## 1. Made-up identifiers -/

/-- The value of hexadecimal digits. -/
def hexadecimal (digits : List Char) : Nat :=
  digits.foldl (fun value c => 16 * value + ((List.range 16).map Nat.digitChar).idxOf c) 0

theorem hexadecimal_append_singleton (digits : List Char) {d : Nat} (hd : d < 16) :
    hexadecimal (digits ++ [Nat.digitChar d]) = 16 * hexadecimal digits + d := by
  have hdigit : ∀ d < 16, ((List.range 16).map Nat.digitChar).idxOf (Nat.digitChar d) = d := by
    decide
  rw [hexadecimal, List.foldl_append, List.foldl_cons, List.foldl_nil, hdigit d hd]
  rfl

theorem hexadecimal_padded (count n : Nat) :
    hexadecimal (List.replicate count '0' ++ Nat.toDigits 16 n) = n := by
  induction n using Nat.base_induction 16 (by decide) with
  | single d hd =>
    rw [Nat.toDigits_of_lt_base hd, hexadecimal_append_singleton _ hd]
    have hzeros : hexadecimal (List.replicate count '0') = 0 := by
      induction count with
      | zero => rfl
      | succ count ih =>
        rw [List.replicate_succ', show '0' = Nat.digitChar 0 from rfl,
          hexadecimal_append_singleton _ (by decide)]
        exact congrArg (16 * ·) ih
    omega
  | digit n d hd hn ih =>
    rw [← Nat.toDigits_append_toDigits (by decide) hn hd, ← List.append_assoc,
      Nat.toDigits_of_lt_base hd, hexadecimal_append_singleton _ hd, ih]

theorem eq_of_append_ofList {front : String} {cs ds : List Char}
    (h : front ++ String.ofList cs = front ++ String.ofList ds) : cs = ds := by
  have hchars := congrArg String.toList h
  simpa using hchars

/-- **Different numbers give different identifiers.** -/
theorem messageId_injective : Function.Injective messageId := by
  intro n m h
  rw [← hexadecimal_padded (12 - (Nat.toDigits 16 n).length) n, eq_of_append_ofList h,
    hexadecimal_padded]

/-! ## 2. The identifiers of calls -/

/-- The identifiers that a call has at hand at a stage. -/
def Stage.ids : Stage → List String
  | ifOpen purpose _ | ifStillOpen _ purpose _ | enqueue _ purpose _ | withdraw purpose _ =>
    purpose.id?.toList
  | register id purpose _ => id :: purpose.id?.toList
  | _ => []

/-- A call that begins makes up its identifier from its number. -/
def System.MakesUp (s : System) : Move → Prop
  | .begin stage => ∀ id ∈ stage.ids, id = messageId s.begun
  | _ => True

instance (s : System) : (move : Move) → Decidable (s.MakesUp move)
  | .begin stage => inferInstanceAs (Decidable (∀ id ∈ stage.ids, id = messageId s.begun))
  | .step _ | .elapse _ | .link _ | .subscribe | .unsubscribe _ => .isTrue trivial

/-- All calls make up their identifiers from their numbers. -/
def History.MadeUp (history : History) : Prop := ∀ e ∈ history, e.1.MakesUp e.2

instance (history : History) : Decidable history.MadeUp :=
  inferInstanceAs (Decidable (∀ e ∈ history, e.1.MakesUp e.2))

theorem History.MadeUp.front {before behind : History} (h : MadeUp (before ++ behind)) :
    before.MadeUp :=
  fun e he => h e (List.mem_append_left _ he)

theorem History.MadeUp.last {history : History} {s : System} {move : Move}
    (h : MadeUp (history ++ [(s, move)])) : s.MakesUp move :=
  h (s, move) (List.mem_append_right _ List.mem_cons_self)

/-- A call goes on with the identifiers that it has. -/
theorem ids_stepStage {s t : System} {stage later : Stage}
    (h : s.stepStage stage = some (t, .goOn later)) : later.ids ⊆ stage.ids := by
  by_cases hnone : later.ids = []
  · rw [hnone]
    exact List.nil_subset _
  have hother : ¬ (System.Next.goOn later).IsAftermath := by
    cases later <;> first | exact id | exact absurd rfl hnone
  cases stage
  all_goals
    simp only [System.stepStage] at h
    repeat' split at h
  all_goals first
    | exact absurd (Prod.mk.inj (Option.some.inj h)).2 (System.refused_ne hother _ _)
    | exact absurd (Prod.mk.inj (Option.some.inj h)).2 (System.queued_ne hother _ _ _)
    | cases h; exact absurd rfl hnone
    | cases h; simp [Stage.ids, *]
    | cases h

/-! ## 3. Whose identifiers are in the registry -/

/-- Every call has its own identifier, and the registry knows no others. -/
structure Identified (s : System) : Prop where
  numbered : s.Numbered
  own : ∀ number stage, s.calls.lookup number = some stage →
    ∀ id ∈ stage.ids, id = messageId number
  pending : ∀ id, s.registry.ticket? id ≠ none → ∃ number < s.begun, id = messageId number

namespace Identified

variable {s t : System} {move : Move} {number : Nat} {id : String}

/-- Only the call itself registers its identifier or takes it back. -/
theorem of_op? (h : Identified s)
    (hop : s.op? move = some (.register id) ∨ s.op? move = some (.cancel id)) :
    ∃ number < s.begun, move = .step (.call number) ∧ id = messageId number := by
  have hcall : ∃ number stage, move = .step (.call number) ∧
      s.calls.lookup number = some stage ∧ id ∈ stage.ids := by
    rcases hop with hop | hop
    · cases System.does_of_op? hop with
      | register hstage => exact ⟨_, _, rfl, hstage, List.mem_cons_self⟩
    · cases System.does_of_op? hop with
      | cancel hstage hid => exact ⟨_, _, rfl, hstage, by simp [Stage.ids, hid]⟩
  obtain ⟨number, stage, hmove, hstage, hid⟩ := hcall
  refine ⟨number, ?_, hmove, h.own number stage hstage id hid⟩
  by_contra hlt
  rw [h.numbered number (Nat.le_of_not_lt hlt)] at hstage
  cases hstage

theorem ops_of_other (h : Identified s) (hmove : move ≠ .step (.call number)) :
    s.op? move ≠ some (.register (messageId number)) ∧
      s.op? move ≠ some (.cancel (messageId number)) := by
  have hneither : ¬ (s.op? move = some (.register (messageId number)) ∨
      s.op? move = some (.cancel (messageId number))) := by
    intro hops
    obtain ⟨other, -, rfl, hid⟩ := h.of_op? hops
    exact hmove (by rw [messageId_injective hid])
  exact not_or.mp hneither

/-- **Every move keeps that no two calls share an identifier.** -/
theorem perform (h : Identified s) (hmakes : s.MakesUp move) (hstep : s.perform move = some t) :
    Identified t where
  numbered := h.numbered.perform hstep
  own := by
    intro number stage hstage id hid
    rcases System.lookup_perform h.numbered hstep number with ⟨-, hsame⟩ |
      ⟨before, u, next, -, hbefore, hcall, hnext⟩ | ⟨entry, rfl, -, rfl, -, hbegun⟩
    · exact h.own number stage (hsame ▸ hstage) id hid
    · cases next with
      | finish result => cases hnext.symm.trans hstage
      | goOn later =>
        obtain rfl : later = stage := Option.some.inj (hnext.symm.trans hstage)
        exact h.own number before hbefore id (ids_stepStage hcall hid)
    · obtain rfl : entry = stage := Option.some.inj (hbegun.symm.trans hstage)
      exact hmakes id hid
  pending := by
    intro id hid
    have hbegun := System.begun_perform hstep
    have hearlier : (∃ number < s.begun, id = messageId number) := by
      by_cases hfree : s.registry.ticket? id = none
      · -- it has just been registered
        by_cases hop : s.op? move = some (.register id)
        · obtain ⟨number, hlt, -, hown⟩ := h.of_op? (.inl hop)
          exact ⟨number, hlt, hown⟩
        · refine absurd ?_ hid
          rw [System.registry_perform hstep]
          cases hdone : s.op? move with
          | none => exact hfree
          | some op =>
            exact Registry.ticket?_apply_of_free hfree fun heq => hop (heq ▸ hdone)
      · exact h.pending id hfree
    obtain ⟨number, hlt, hown⟩ := hearlier
    exact ⟨number, by omega, hown⟩

theorem run {config : Config} {own : CapabilitySet} {link : Link} {now : Duration}
    {history : History} (h : Run (.start config own link now) history s)
    (hmade : history.MadeUp) : Identified s := by
  induction h with
  | nil =>
    refine ⟨fun _ _ => rfl, ?_, ?_⟩
    · intro number stage hstage
      cases hstage
    · intro id hid
      exact absurd rfl hid
  | snoc before hstep ih =>
    exact (ih hmade.front).perform hmade.last hstep

end Identified

end NetconfClient.Session
