/-
  NetconfClient/Proofs/Association.lean
  =====================================
  **Look-ups in lists of pairs.**

  Calls and requests are kept in lists of pairs whose keys do not repeat.  On
  such a list looking a key up and finding the pair are the same.
-/
import Mathlib.Data.List.Nodup

namespace NetconfClient.Association

variable {α β : Type} [BEq α] [LawfulBEq α] {l : List (α × β)} {k j : α} {v w : β}

theorem mem_of_lookup (h : l.lookup k = some v) : (k, v) ∈ l := by
  obtain ⟨front, back, rfl, -⟩ := List.lookup_eq_some_iff.mp h
  simp

theorem lookup_eq_some_iff_mem (hl : (l.map (·.1)).Nodup) : l.lookup k = some v ↔ (k, v) ∈ l := by
  refine ⟨mem_of_lookup, fun hmem => ?_⟩
  obtain ⟨front, back, rfl⟩ := List.append_of_mem hmem
  refine List.lookup_eq_some_iff.mpr ⟨front, back, rfl, fun p hp => ?_⟩
  rw [List.map_append, List.map_cons, List.nodup_append] at hl
  have hne := hl.2.2 p.1 (List.mem_map_of_mem hp) k (List.mem_cons_self)
  simpa using Ne.symm hne

theorem lookup_eq_none_iff_notMem : l.lookup k = none ↔ k ∉ l.map (·.1) := by
  rw [List.lookup_eq_none_iff]
  constructor
  · intro h hmem
    obtain ⟨p, hp, rfl⟩ := List.mem_map.mp hmem
    simpa using h p hp
  · intro h p hp
    simpa using fun heq : k = p.1 => h (heq ▸ List.mem_map_of_mem hp)

/-- Where keys do not repeat, a look-up does not depend on the order of the pairs. -/
theorem lookup_perm {m : List (α × β)} (h : l.Perm m) (hl : (l.map (·.1)).Nodup) :
    l.lookup k = m.lookup k := by
  have hm : (m.map (·.1)).Nodup := (h.map (·.1)).nodup_iff.mp hl
  ext v
  rw [lookup_eq_some_iff_mem hl, lookup_eq_some_iff_mem hm, h.mem_iff]

theorem lookup_filter_self : (l.filter (·.1 != k)).lookup k = none := by
  rw [lookup_eq_none_iff_notMem]
  simp

theorem lookup_filter_of_ne (h : j ≠ k) : (l.filter (·.1 != k)).lookup j = l.lookup j := by
  induction l with
  | nil => rfl
  | cons p l ih =>
    obtain ⟨a, b⟩ := p
    by_cases ha : a = k
    · subst ha
      have hne : (j == a) = false := by simpa using h
      rw [List.filter_cons_of_neg (by simp), ih, List.lookup_cons, hne]
    · rw [List.filter_cons_of_pos (by simpa using ha), List.lookup_cons, List.lookup_cons, ih]

omit [BEq α] [LawfulBEq α] in
theorem nodup_map_filter {γ : Type} {f : α × β → γ} (h : (l.map f).Nodup) (p : α × β → Bool) :
    ((l.filter p).map f).Nodup :=
  h.sublist (List.filter_sublist.map f)

end NetconfClient.Association
