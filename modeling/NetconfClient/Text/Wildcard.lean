/-
  NetconfClient/Text/Wildcard.lean
  ================================
  **Wildcard patterns.**

  In a pattern `?` stands for any one character and `*` for any run of
  characters, also the empty one; every other character stands for itself.
-/

namespace NetconfClient.Text.Wildcard

/-- Whether a test holds behind some run of characters at the beginning. -/
def afterRun (test : List Char → Bool) : List Char → Bool
  | [] => test []
  | c :: cs => test (c :: cs) || afterRun test cs

/-- Whether a text is made up as a pattern says. -/
def fits : List Char → List Char → Bool
  | [], cs => cs.isEmpty
  | '*' :: ps, cs => afterRun (fits ps) cs
  | '?' :: ps, cs =>
    match cs with
    | [] => false
    | _ :: rest => fits ps rest
  | p :: ps, cs =>
    match cs with
    | [] => false
    | c :: rest => p == c && fits ps rest

/-- What `afterRun` looks for: a run and a rest. -/
theorem afterRun_iff {test : List Char → Bool} {cs : List Char} :
    afterRun test cs = true ↔ ∃ run rest, cs = run ++ rest ∧ test rest = true := by
  induction cs with
  | nil =>
    constructor
    · exact fun h => ⟨[], [], rfl, h⟩
    · rintro ⟨run, rest, hcs, h⟩
      obtain ⟨_, rfl⟩ := List.append_eq_nil_iff.1 hcs.symm
      exact h
  | cons c cs ih =>
    simp only [afterRun, Bool.or_eq_true, ih]
    constructor
    · rintro (h | ⟨run, rest, rfl, h⟩)
      · exact ⟨[], c :: cs, rfl, h⟩
      · exact ⟨c :: run, rest, rfl, h⟩
    · rintro ⟨run, rest, hcs, h⟩
      cases run with
      | nil => exact .inl (by simp_all)
      | cons d run =>
        obtain ⟨_, rfl⟩ := List.cons.inj hcs
        exact .inr ⟨run, rest, rfl, h⟩

/-- A pattern without `*` and `?` fits itself only. -/
theorem fits_literal_iff {ps cs : List Char} (hstar : '*' ∉ ps) (hmark : '?' ∉ ps) :
    fits ps cs = true ↔ cs = ps := by
  induction ps generalizing cs with
  | nil => simp [fits]
  | cons p ps ih =>
    simp only [List.mem_cons, not_or] at hstar hmark
    have hone : p ≠ '*' := Ne.symm hstar.1
    have hany : p ≠ '?' := Ne.symm hmark.1
    rcases cs with _ | ⟨c, rest⟩
    · simp [fits]
    · simp only [fits, Bool.and_eq_true, beq_iff_eq, ih hstar.2 hmark.2, List.cons.injEq,
        eq_comm (a := p)]

example : fits "r?".toList "r1".toList = true := by decide
example : fits "r*2".toList "r1:22".toList = true := by decide
example : fits "r?".toList "r".toList = false := by decide

end NetconfClient.Text.Wildcard
