/-
  NetconfClient/Proofs/Markup/Entity.lean
  =======================================
  **Escaped text is plain character data that stands for the text.**

  It holds none of the characters that markup reserves (`notMem_escape`), it is
  read back (`unescape_escape`), and it is trimmed where the text itself is
  (`trimWhile_escape`).
-/
import NetconfClient.Markup.Entity
import NetconfClient.Proofs.Text.Trim

namespace NetconfClient.Markup

open Text

/-! ## 1. One character -/

/-- The characters that stand for themselves nowhere. -/
def reserved : List Char := ['&', '<', '>', '\'', '"']

/-- The reserved characters are gone through one by one. -/
theorem forall_reserved {p : Char → Prop} [DecidablePred p]
    (h : reserved.all (fun c => decide (p c)) = true) : ∀ c ∈ reserved, p c :=
  fun c hc => of_decide_eq_true (List.all_eq_true.mp h c hc)

theorem escapeChar_of_notMem {c : Char} (h : c ∉ reserved) : escapeChar c = [c] := by
  simp only [reserved, List.mem_cons, List.not_mem_nil, or_false, not_or] at h
  obtain ⟨hamp, hlt, hgt, hapos, hquot⟩ := h
  rw [escapeChar, if_neg hamp, if_neg hlt, if_neg hgt, if_neg hapos, if_neg hquot]

theorem notMem_reserved_of_blank {c : Char} (h : isMarkupBlank c) : c ∉ reserved := by
  have hall : ∀ c ∈ reserved, isMarkupBlank c = false := forall_reserved (by decide)
  intro hc
  rw [hall c hc] at h
  cases h

/-- Of the reserved characters only the `&` occurs in the form of a character. -/
theorem notMem_escapeChar {d : Char} (hd : d ∈ reserved) (hamp : d ≠ '&') (c : Char) :
    d ∉ escapeChar c := by
  by_cases hc : c ∈ reserved
  · have hall : ∀ c ∈ reserved, reserved.all fun d => d = '&' ∨ d ∉ escapeChar c :=
      forall_reserved (by decide)
    have hor := of_decide_eq_true (List.all_eq_true.mp (hall c hc) d hd)
    exact hor.resolve_left hamp
  · rw [escapeChar_of_notMem hc, List.mem_singleton]
    rintro rfl
    exact hc hd

/-- The form of a character that is no blank begins and ends with characters that are none. -/
theorem escapeChar_of_not_blank {c : Char} (h : isMarkupBlank c = false) :
    (∃ d ds, escapeChar c = d :: ds ∧ isMarkupBlank d = false) ∧
      ∃ d ds, (escapeChar c).reverse = d :: ds ∧ isMarkupBlank d = false := by
  by_cases hc : c ∈ reserved
  · have hall : ∀ c ∈ reserved, (∃ ds, escapeChar c = '&' :: ds) ∧
        ∃ ds, (escapeChar c).reverse = ';' :: ds := by
      intro c hc
      simp only [reserved, List.mem_cons, List.not_mem_nil, or_false] at hc
      rcases hc with rfl | rfl | rfl | rfl | rfl <;> exact ⟨⟨_, rfl⟩, ⟨_, rfl⟩⟩
    obtain ⟨⟨ds, hds⟩, ⟨es, hes⟩⟩ := hall c hc
    exact ⟨⟨'&', ds, hds, rfl⟩, ⟨';', es, hes, rfl⟩⟩
  · rw [escapeChar_of_notMem hc]
    exact ⟨⟨c, [], rfl, h⟩, ⟨c, [], rfl, h⟩⟩

theorem escapeChar_of_blank (c : Char) (h : isMarkupBlank c) : escapeChar c = [c] :=
  escapeChar_of_notMem (notMem_reserved_of_blank h)

/-- A reader outside entities takes the form of a character as that character. -/
theorem unescapeFrom_escapeChar (total pos : Nat) (c : Char) :
    ∃ next, ∀ rest, unescapeFrom total .text pos (escapeChar c ++ rest) =
      (unescapeFrom total .text next rest).map (c :: ·) := by
  by_cases hc : c ∈ reserved
  · simp only [reserved, List.mem_cons, List.not_mem_nil, or_false] at hc
    rcases hc with rfl | rfl | rfl | rfl | rfl <;> exact ⟨_, fun _ => rfl⟩
  · have hamp : c ≠ '&' := by
      rintro rfl
      exact hc (by decide)
    refine ⟨pos + Utf8.charSize c, fun rest => ?_⟩
    rw [escapeChar_of_notMem hc, List.singleton_append, unescapeFrom, if_neg hamp]

/-! ## 2. Texts -/

theorem unescapeFrom_escape (total pos : Nat) (cs : List Char) :
    unescapeFrom total .text pos (escape cs) = .ok cs := by
  induction cs generalizing pos with
  | nil => rfl
  | cons c cs ih =>
    obtain ⟨next, hnext⟩ := unescapeFrom_escapeChar total pos c
    rw [escape, List.flatMap_cons, hnext, ← escape, ih]
    rfl

/-- **Escaped text is read back.** -/
theorem unescape_escape (cs : List Char) : unescape (escape cs) = .ok cs :=
  unescapeFrom_escape _ 0 cs

theorem notMem_escape {d : Char} (hd : d ∈ reserved) (hamp : d ≠ '&') (cs : List Char) :
    d ∉ escape cs := by
  intro h
  obtain ⟨c, -, hc⟩ := List.mem_flatMap.mp h
  exact notMem_escapeChar hd hamp c hc

/-- **Escaped text is trimmed where the text is.** -/
theorem trimWhile_escape (cs : List Char) :
    trimWhile isMarkupBlank (escape cs) = escape (trimWhile isMarkupBlank cs) :=
  trimWhile_flatMap (fun c h => by rw [escapeChar_of_blank c h]; simpa using h)
    (fun _ h => (escapeChar_of_not_blank h).1)
    (fun _ h => (escapeChar_of_not_blank h).2) cs

/-- Text without reserved characters is its own form. -/
theorem escape_eq_self {cs : List Char} (h : ∀ c ∈ cs, c ∉ reserved) : escape cs = cs := by
  induction cs with
  | nil => rfl
  | cons c cs ih =>
    rw [escape, List.flatMap_cons, escapeChar_of_notMem (h c List.mem_cons_self), ← escape,
      ih fun d hd => h d (List.mem_cons_of_mem c hd), List.singleton_append]

theorem escape_eq_nil_iff {cs : List Char} : escape cs = [] ↔ cs = [] := by
  constructor
  · intro h
    have := unescape_escape cs
    rw [h] at this
    exact (Except.ok.inj this).symm
  · rintro rfl
    rfl

end NetconfClient.Markup
