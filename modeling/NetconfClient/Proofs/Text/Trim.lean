/-
  NetconfClient/Proofs/Text/Trim.lean
  ===================================
  **Trimming once and trimming twice.**

  What one trimming removes does not matter to a later one that removes more
  (`trimWhile_trimWhile`), and a text whose parts are written one by one is trimmed
  where the list of its parts is (`trimWhile_flatMap`), as long as what is written
  tells blanks from everything else.
-/
import Mathlib.Data.List.TakeWhile
import NetconfClient.Text.Blank

namespace NetconfClient.Text

variable {α β : Type} {p q : α → Bool} {xs ys : List α}

/-! ## 1. What is removed -/

theorem dropEndWhile_append_of_all (h : ∀ x ∈ ys, p x) (xs : List α) :
    dropEndWhile p (xs ++ ys) = dropEndWhile p xs := by
  rw [dropEndWhile, List.reverse_append,
    List.dropWhile_append_of_pos fun x hx => h x (List.mem_reverse.mp hx), dropEndWhile]

theorem exists_dropEndWhile (p : α → Bool) (xs : List α) :
    ∃ tail, xs = dropEndWhile p xs ++ tail ∧ ∀ x ∈ tail, p x := by
  refine ⟨(xs.reverse.takeWhile p).reverse, ?_, fun x hx => ?_⟩
  · rw [dropEndWhile, ← List.reverse_append, List.takeWhile_append_dropWhile, List.reverse_reverse]
  · exact List.mem_takeWhile_imp (List.mem_reverse.mp hx)

/-- A text is what trimming leaves, between what it removes. -/
theorem exists_trimWhile (p : α → Bool) (xs : List α) :
    ∃ front tail, xs = front ++ (trimWhile p xs ++ tail) ∧ (∀ x ∈ front, p x) ∧
      ∀ x ∈ tail, p x := by
  obtain ⟨tail, htail, hall⟩ := exists_dropEndWhile p (xs.dropWhile p)
  refine ⟨xs.takeWhile p, tail, ?_, fun x hx => List.mem_takeWhile_imp hx, hall⟩
  rw [trimWhile, ← htail, List.takeWhile_append_dropWhile]

/-- What is removed anyway may stand around a text. -/
theorem trimWhile_append_append {front tail : List α} (hfront : ∀ x ∈ front, p x)
    (htail : ∀ x ∈ tail, p x) (xs : List α) :
    trimWhile p (front ++ (xs ++ tail)) = trimWhile p xs := by
  rw [trimWhile, trimWhile, List.dropWhile_append_of_pos hfront, List.dropWhile_append]
  cases hxs : xs.dropWhile p with
  | nil =>
    rw [List.isEmpty_nil, if_pos rfl, List.dropWhile_eq_nil_iff.mpr htail]
  | cons x rest =>
    rw [List.isEmpty_cons, if_neg (by decide), dropEndWhile_append_of_all htail]

/-- **A trimming behind one that removes less does all the work.** -/
theorem trimWhile_trimWhile (h : ∀ x, p x → q x) (xs : List α) :
    trimWhile q (trimWhile p xs) = trimWhile q xs := by
  obtain ⟨front, tail, hxs, hfront, htail⟩ := exists_trimWhile p xs
  have hwhole := trimWhile_append_append (fun x hx => h x (hfront x hx))
    (fun x hx => h x (htail x hx)) (trimWhile p xs)
  rw [← hxs] at hwhole
  exact hwhole.symm

theorem isBlank_of_isMarkupBlank (c : Char) (h : isMarkupBlank c) : isBlank c := by
  simp only [isMarkupBlank, Bool.or_eq_true, beq_iff_eq] at h
  rcases h with ((rfl | rfl) | rfl) | rfl <;> decide

theorem trim_trimWhile (cs : List Char) : trim (trimWhile isMarkupBlank cs) = trim cs :=
  trimWhile_trimWhile isBlank_of_isMarkupBlank cs

/-! ## 2. Texts without blanks at their ends -/

/-- A text that ends with something else keeps its end. -/
theorem dropEndWhile_eq_self (hlast : ∀ x ∈ xs.getLast?, p x = false) : dropEndWhile p xs = xs := by
  rcases List.eq_nil_or_concat xs with rfl | ⟨init, x, rfl⟩
  · rfl
  · rw [List.concat_eq_append] at hlast ⊢
    exact dropEndWhile_append_singleton init (hlast x (by simp))

/-- A text that begins with something else is trimmed at its end. -/
theorem trimWhile_eq_dropEndWhile (hfirst : ∀ x ∈ xs.head?, p x = false) :
    trimWhile p xs = dropEndWhile p xs := by
  have hfront : xs.dropWhile p = xs := by
    cases xs with
    | nil => rfl
    | cons x rest => rw [List.dropWhile_cons, hfirst x rfl]; rfl
  rw [trimWhile, hfront]

/-- A text that begins and ends with something else keeps both ends. -/
theorem trimWhile_eq_self (hfirst : ∀ x ∈ xs.head?, p x = false)
    (hlast : ∀ x ∈ xs.getLast?, p x = false) : trimWhile p xs = xs := by
  rw [trimWhile_eq_dropEndWhile hfirst, dropEndWhile_eq_self hlast]

/-- Nothing in front of something else is removed. -/
theorem dropEndWhile_append_cons {x : α} (hx : p x = false) (xs ys : List α) :
    dropEndWhile p (xs ++ x :: ys) = xs ++ x :: dropEndWhile p ys := by
  have hskip : (ys.reverse ++ (x :: xs.reverse)).dropWhile p =
      ys.reverse.dropWhile p ++ (x :: xs.reverse) := by
    rw [List.dropWhile_append, List.dropWhile_cons_of_neg (by simp [hx])]
    split
    · next hnil => rw [List.isEmpty_iff.mp hnil, List.nil_append]
    · rfl
  rw [dropEndWhile, List.reverse_append, List.reverse_cons, List.append_assoc,
    List.singleton_append, hskip, List.reverse_append, List.reverse_cons, List.reverse_reverse,
    List.append_assoc, List.singleton_append, dropEndWhile]

/-- What trimming leaves begins with something else. -/
theorem of_mem_head?_trimWhile {x : α} (h : x ∈ (trimWhile p xs).head?) : p x = false := by
  obtain ⟨tail, htail, -⟩ := exists_dropEndWhile p (xs.dropWhile p)
  have hfirst : (xs.dropWhile p).head? = some x := by
    rw [htail, List.head?_append]
    rw [trimWhile] at h
    rw [h]
    rfl
  have hnot := List.head?_dropWhile_not p xs
  rwa [hfirst] at hnot

/-- What trimming leaves ends with something else. -/
theorem of_mem_getLast?_trimWhile {x : α} (h : x ∈ (trimWhile p xs).getLast?) : p x = false := by
  rw [trimWhile, dropEndWhile, List.getLast?_reverse] at h
  have hnot := List.head?_dropWhile_not p (xs.dropWhile p).reverse
  rwa [h] at hnot

/-- A text of which trimming leaves nothing is removed as a whole. -/
theorem trimWhile_eq_nil_iff : trimWhile p xs = [] ↔ ∀ x ∈ xs, p x := by
  constructor
  · intro h
    obtain ⟨front, tail, hxs, hfront, htail⟩ := exists_trimWhile p xs
    rw [h, List.nil_append] at hxs
    intro x hx
    rw [hxs] at hx
    exact (List.mem_append.mp hx).elim (hfront x) (htail x)
  · intro h
    rw [trimWhile, List.dropWhile_eq_nil_iff.mpr h, dropEndWhile_nil]

/-! ## 3. Replacing characters -/

section Replacing

variable {f : β → List α} {r : β → Bool}

/-- A replacement that keeps apart what is removed and what begins with something else. -/
theorem dropWhile_flatMap (hblank : ∀ x, r x → ∀ y ∈ f x, p y)
    (hother : ∀ x, r x = false → ∃ y ys, f x = y :: ys ∧ p y = false) (xs : List β) :
    (xs.flatMap f).dropWhile p = (xs.dropWhile r).flatMap f := by
  induction xs with
  | nil => rfl
  | cons x xs ih =>
    cases hx : r x with
    | true =>
      rw [List.flatMap_cons, List.dropWhile_append_of_pos (hblank x hx), List.dropWhile_cons_of_pos hx,
        ih]
    | false =>
      obtain ⟨y, ys, hy, hpy⟩ := hother x hx
      rw [List.dropWhile_cons_of_neg (by simp [hx]), List.flatMap_cons, hy, List.cons_append,
        List.dropWhile_cons_of_neg (by simp [hpy])]

/-- **Trimming a replacement is replacing what trimming leaves.** -/
theorem trimWhile_flatMap (hblank : ∀ x, r x → ∀ y ∈ f x, p y)
    (hfirst : ∀ x, r x = false → ∃ y ys, f x = y :: ys ∧ p y = false)
    (hlast : ∀ x, r x = false → ∃ y ys, (f x).reverse = y :: ys ∧ p y = false) (xs : List β) :
    trimWhile p (xs.flatMap f) = (trimWhile r xs).flatMap f := by
  have hend : ∀ zs : List β, dropEndWhile p (zs.flatMap f) = (dropEndWhile r zs).flatMap f := by
    intro zs
    have hreverse : ∀ x, r x → ∀ y ∈ (List.reverse ∘ f) x, p y := fun x hx y hy =>
      hblank x hx y (List.mem_reverse.mp hy)
    rw [dropEndWhile, dropEndWhile, List.reverse_flatMap, dropWhile_flatMap hreverse hlast,
      List.reverse_flatMap]
    congr 1
    funext x
    exact List.reverse_reverse (f x)
  rw [trimWhile, trimWhile, dropWhile_flatMap hblank hfirst, hend]

theorem trimWhile_map (g : β → α) (xs : List β) :
    trimWhile p (xs.map g) = (trimWhile (fun x => p (g x)) xs).map g := by
  have h := trimWhile_flatMap (f := fun x => [g x]) (p := p) (r := fun x => p (g x))
    (by simp) (fun x hx => ⟨g x, [], rfl, hx⟩) (fun x hx => ⟨g x, [], rfl, hx⟩) xs
  simpa only [← List.map_eq_flatMap] using h

end Replacing

end NetconfClient.Text
