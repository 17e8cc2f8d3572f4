/-
  NetconfClient/Text/Cut.lean
  ===========================
  **Cutting a text at a separator.**

  `cut` cuts at the first separator only; nothing is lost by it
  (`cut_some`: the parts and the separator make up the text again), and the
  part in front holds no separator (`notMem_cut_fst`).
-/

namespace NetconfClient.Text

/-- The part in front of the first `sep`, and the part behind it if there is one. -/
def cut (sep : Char) (cs : List Char) : List Char × Option (List Char) :=
  match cs with
  | [] => ([], none)
  | c :: rest =>
    if c = sep then ([], some rest)
    else
      match cut sep rest with
      | (front, back) => (c :: front, back)

@[simp] theorem cut_nil (sep : Char) : cut sep [] = ([], none) := rfl

theorem cut_cons_self (sep : Char) (rest : List Char) : cut sep (sep :: rest) = ([], some rest) := by
  simp [cut]

theorem cut_cons_of_ne {sep c : Char} (rest : List Char) (h : c ≠ sep) :
    cut sep (c :: rest) = (c :: (cut sep rest).1, (cut sep rest).2) := by
  simp [cut, h]

/-- The part in front holds no separator. -/
theorem notMem_cut_fst (sep : Char) (cs : List Char) : sep ∉ (cut sep cs).1 := by
  induction cs with
  | nil => simp
  | cons c rest ih =>
    by_cases h : c = sep
    · subst h; simp [cut_cons_self]
    · simp [cut_cons_of_ne rest h, ih, Ne.symm h]

/-- Where there is a separator, the parts and the separator make up the text. -/
theorem cut_some {sep : Char} {cs back : List Char} (h : (cut sep cs).2 = some back) :
    cs = (cut sep cs).1 ++ sep :: back := by
  induction cs with
  | nil => simp at h
  | cons c rest ih =>
    by_cases hc : c = sep
    · subst hc
      simp only [cut_cons_self, Option.some.injEq] at h ⊢
      simp [h]
    · simp only [cut_cons_of_ne rest hc] at h ⊢
      rw [List.cons_append, ← ih h]

/-- Without a separator, the part in front is the text. -/
theorem cut_none {sep : Char} {cs : List Char} (h : (cut sep cs).2 = none) :
    (cut sep cs).1 = cs := by
  induction cs with
  | nil => rfl
  | cons c rest ih =>
    by_cases hc : c = sep
    · subst hc; simp [cut_cons_self] at h
    · simp only [cut_cons_of_ne rest hc] at h ⊢
      rw [ih h]

theorem eq_append_of_cut {sep : Char} {cs front back : List Char}
    (h : cut sep cs = (front, some back)) : cs = front ++ sep :: back ∧ sep ∉ front := by
  have hwhole : cs = (cut sep cs).1 ++ sep :: back := cut_some (by rw [h])
  have hfront := notMem_cut_fst sep cs
  rw [h] at hwhole hfront
  exact ⟨hwhole, hfront⟩

theorem eq_of_cut {sep : Char} {cs front : List Char} (h : cut sep cs = (front, none)) :
    cs = front ∧ sep ∉ cs := by
  have hwhole : (cut sep cs).1 = cs := cut_none (by rw [h])
  have hfront := notMem_cut_fst sep cs
  rw [hwhole] at hfront
  rw [h] at hwhole
  exact ⟨hwhole.symm, hfront⟩

/-- The first separator behind a part without one is where a text is cut. -/
theorem cut_append_cons {sep : Char} {front : List Char} (back : List Char) (h : sep ∉ front) :
    cut sep (front ++ sep :: back) = (front, some back) := by
  induction front with
  | nil => simp [cut_cons_self]
  | cons c front ih =>
    simp only [List.mem_cons, not_or] at h
    rw [List.cons_append, cut_cons_of_ne _ (Ne.symm h.1), ih h.2]

/-- A text without a separator is not cut. -/
theorem cut_of_notMem {sep : Char} {cs : List Char} (h : sep ∉ cs) : cut sep cs = (cs, none) := by
  induction cs with
  | nil => rfl
  | cons c cs ih =>
    simp only [List.mem_cons, not_or] at h
    rw [cut_cons_of_ne _ (Ne.symm h.1), ih h.2]

end NetconfClient.Text
