/-
  NetconfClient/Proofs/Framing/Delimiter.lean
  ===========================================
  **Chunk headers and end markers, read from the front of the octets.**

  What a delimiter turns out to be is settled by the octets it is read from:
  more octets behind them change neither a header nor an end marker, and what
  is refused stays refused, though the reason may change with the octets
  (`readDelimiter_append`).
-/
import Mathlib.Data.List.TakeWhile
import NetconfClient.Framing.Chunked

namespace NetconfClient.Framing.Chunked

/-- How a delimiter is read again when more octets stand behind it: as the same one,
    unless it was unfinished; a refusal may have another reason. -/
def Delimiter.Persists (more : List UInt8) : Delimiter → Delimiter → Prop
  | .unfinished, _ => True
  | .chunk size rest, d => d = .chunk size (rest ++ more)
  | .endOfChunks rest, d => d = .endOfChunks (rest ++ more)
  | .invalid _, d => ∃ error, d = .invalid error

/-! ## 1. Sizes -/

theorem size?_of_long {digits : List UInt8} (h : maxDigits < digits.length) :
    size? digits = .error .longSize := by
  have hne : digits ≠ [] := by
    intro hnil
    rw [hnil] at h
    exact Nat.not_lt_zero _ h
  rw [size?, if_neg hne, if_pos h]

theorem readSizeEnd_of_long {digits : List UInt8} (h : maxDigits < digits.length)
    (octets : List UInt8) : ∃ error, readSizeEnd digits octets = .invalid error := by
  cases octets with
  | nil => exact ⟨_, by rw [readSizeEnd, if_pos h]⟩
  | cons b rest =>
    rw [readSizeEnd, size?_of_long h]
    by_cases hb : b ≠ lf
    · exact ⟨_, if_pos hb⟩
    · exact ⟨_, if_neg hb⟩

theorem readSizeEnd_append (digits more : List UInt8) (b : UInt8) (rest : List UInt8) :
    (readSizeEnd digits (b :: rest)).Persists more (readSizeEnd digits (b :: rest ++ more)) := by
  simp only [readSizeEnd, List.cons_append]
  by_cases hb : b ≠ lf
  · rw [if_pos hb, if_pos hb]
    exact ⟨_, rfl⟩
  · rw [if_neg hb, if_neg hb]
    cases size? digits with
    | ok size => rfl
    | error error => exact ⟨_, rfl⟩

theorem readSize_append (octets more : List UInt8) :
    (readSize octets).Persists more (readSize (octets ++ more)) := by
  unfold readSize
  rw [List.takeWhile_append, List.dropWhile_append]
  cases hend : octets.dropWhile isDigit with
  | nil =>
    -- digits only: they may go on, but too many of them are refused at once
    have hall : octets.takeWhile isDigit = octets :=
      List.takeWhile_eq_self_iff.mpr (List.dropWhile_eq_nil_iff.mp hend)
    rw [hall, if_pos rfl, readSizeEnd]
    by_cases hlong : maxDigits < octets.length
    · rw [if_pos hlong]
      refine readSizeEnd_of_long ?_ _
      rw [List.length_append]
      omega
    · rw [if_neg hlong]
      trivial
  | cons b rest =>
    -- an octet that is no digit ends the size, so nothing behind it can change it
    have hlt : (octets.takeWhile isDigit).length ≠ octets.length := by
      intro hlen
      have := congrArg List.length (List.takeWhile_append_dropWhile (p := isDigit) (l := octets))
      rw [hend, List.length_append, List.length_cons] at this
      omega
    rw [if_neg hlt, List.isEmpty_cons, if_neg Bool.false_ne_true]
    exact readSizeEnd_append _ _ _ _

/-! ## 2. Delimiters -/

theorem readKind_append (octets more : List UInt8) :
    (readKind octets).Persists more (readKind (octets ++ more)) := by
  cases octets with
  | nil => trivial
  | cons b rest =>
    simp only [readKind, List.cons_append]
    by_cases hb : b = hash
    · rw [if_pos hb, if_pos hb]
      cases rest with
      | nil => trivial
      | cons c rest =>
        dsimp only [List.cons_append]
        by_cases hc : c = lf
        · rw [if_pos hc, if_pos hc]
          rfl
        · rw [if_neg hc, if_neg hc]
          exact ⟨_, rfl⟩
    · rw [if_neg hb, if_neg hb]
      exact readSize_append (b :: rest) more

/-- **Octets that follow a delimiter do not change it.** -/
theorem readDelimiter_append (octets more : List UInt8) :
    (readDelimiter octets).Persists more (readDelimiter (octets ++ more)) := by
  cases octets with
  | nil => trivial
  | cons b rest =>
    simp only [readDelimiter, List.cons_append]
    by_cases hb : b ≠ lf
    · rw [if_pos hb, if_pos hb]
      exact ⟨_, rfl⟩
    · rw [if_neg hb, if_neg hb]
      cases rest with
      | nil => trivial
      | cons c rest =>
        dsimp only [List.cons_append]
        by_cases hc : c ≠ hash
        · rw [if_pos hc, if_pos hc]
          exact ⟨_, rfl⟩
        · rw [if_neg hc, if_neg hc]
          exact readKind_append rest more

end NetconfClient.Framing.Chunked
