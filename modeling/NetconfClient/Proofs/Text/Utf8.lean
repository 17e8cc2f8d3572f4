/-
  NetconfClient/Proofs/Text/Utf8.lean
  ===================================
  **Decoding undoes encoding.**

  A character is read back from its own octets whatever follows them
  (`decodeFrom_encodeChar`), so a text is read back from its encoding
  (`decode_encode`).  Of the octets of a character the first says how many
  follow and how the second is bounded; the proof goes through the ranges of
  `encodeChar` and shows for each that `lead` falls into the matching branch.
-/
import Mathlib.Data.Char
import NetconfClient.Text.Utf8

namespace NetconfClient.Text.Utf8

theorem toNat_lt_or (c : Char) : c.toNat < 0xD800 ∨ 0xDFFF < c.toNat ∧ c.toNat < 0x110000 :=
  c.valid

theorem toNat_ofNat_octet {n : Nat} (h : n < 256) : (UInt8.ofNat n).toNat = n :=
  UInt8.toNat_ofNat_of_lt' h

/-! ## 1. Single octets -/

theorem lead_whole {n : Nat} (h : n < 0x80) : lead (UInt8.ofNat n) = .whole (Char.ofNat n) := by
  simp only [lead, toNat_ofNat_octet (show n < 256 by omega), if_pos h]

theorem lead_two {n : Nat} (h : 0xC2 ≤ n) (h' : n < 0xE0) :
    lead (UInt8.ofNat n) = .opens ⟨n - 0xC0, 1, 0x80, 0xBF⟩ := by
  simp only [lead, toNat_ofNat_octet (show n < 256 by omega)]
  rw [if_neg (by omega), if_neg (by omega), if_pos h']

/-- The range of the second octet keeps out what fits into two octets and the surrogates. -/
theorem lead_three {n : Nat} (h : 0xE0 ≤ n) (h' : n < 0xF0) :
    lead (UInt8.ofNat n) =
      .opens ⟨n - 0xE0, 2, if n = 0xE0 then 0xA0 else 0x80, if n = 0xED then 0x9F else 0xBF⟩ := by
  simp only [lead, toNat_ofNat_octet (show n < 256 by omega)]
  rw [if_neg (by omega), if_neg (by omega), if_neg (by omega)]
  by_cases hfirst : n = 0xE0
  · subst hfirst
    rfl
  · by_cases hsurrogate : n = 0xED
    · subst hsurrogate
      rfl
    · simp only [if_neg hfirst, if_neg hsurrogate, if_pos h']

/-- The range of the second octet keeps out what fits into three octets and what is past
    U+10FFFF. -/
theorem lead_four {n : Nat} (h : 0xF0 ≤ n) (h' : n < 0xF5) :
    lead (UInt8.ofNat n) =
      .opens ⟨n - 0xF0, 3, if n = 0xF0 then 0x90 else 0x80, if n = 0xF4 then 0x8F else 0xBF⟩ := by
  simp only [lead, toNat_ofNat_octet (show n < 256 by omega)]
  rw [if_neg (by omega), if_neg (by omega), if_neg (by omega), if_neg (by omega),
    if_neg (by omega), if_neg (by omega)]
  by_cases hfirst : n = 0xF0
  · subst hfirst
    rfl
  · by_cases hlast : n = 0xF4
    · subst hlast
      rfl
    · rw [if_neg hfirst, if_pos (by omega), if_neg hfirst, if_neg hlast]

theorem octet_in_range {n : Nat} {low high : UInt8} (hn : n < 64)
    (hlow : low.toNat ≤ 0x80 + n) (hhigh : 0x80 + n ≤ high.toNat) :
    low ≤ UInt8.ofNat (0x80 + n) ∧ UInt8.ofNat (0x80 + n) ≤ high := by
  rw [UInt8.le_iff_toNat_le, UInt8.le_iff_toNat_le, toNat_ofNat_octet (by omega)]
  exact ⟨hlow, hhigh⟩

theorem decodeFrom_last {bits n : Nat} {low high : UInt8} (rest : List UInt8) (hn : n < 64)
    (hlow : low.toNat ≤ 0x80 + n) (hhigh : 0x80 + n ≤ high.toNat) :
    decodeFrom (some ⟨bits, 1, low, high⟩) (UInt8.ofNat (0x80 + n) :: rest) =
      Char.ofNat (bits * 64 + n) :: decodeFrom none rest := by
  rw [decodeFrom, if_pos (octet_in_range hn hlow hhigh), toNat_ofNat_octet (by omega),
    Nat.add_sub_cancel_left]
  rfl

theorem decodeFrom_owed {bits owed n : Nat} {low high : UInt8} (rest : List UInt8) (hn : n < 64)
    (hlow : low.toNat ≤ 0x80 + n) (hhigh : 0x80 + n ≤ high.toNat) :
    decodeFrom (some ⟨bits, owed + 2, low, high⟩) (UInt8.ofNat (0x80 + n) :: rest) =
      decodeFrom (some ⟨bits * 64 + n, owed + 1, 0x80, 0xBF⟩) rest := by
  rw [decodeFrom, if_pos (octet_in_range hn hlow hhigh), toNat_ofNat_octet (by omega),
    Nat.add_sub_cancel_left]
  rfl

/-! ## 2. Characters and texts -/

/-- **A character is read back from its octets, whatever follows them.** -/
theorem decodeFrom_encodeChar (c : Char) (rest : List UInt8) :
    decodeFrom none (encodeChar c ++ rest) = c :: decodeFrom none rest := by
  have hvalid := toNat_lt_or c
  unfold encodeChar
  by_cases h1 : c.toNat < 0x80
  · simp only [if_pos h1, List.cons_append, List.nil_append, decodeFrom, lead_whole h1,
      Char.ofNat_toNat]
  by_cases h2 : c.toNat < 0x800
  · simp only [if_neg h1, if_pos h2, List.cons_append, List.nil_append]
    have hbits : (0xC0 + c.toNat / 64 - 0xC0) * 64 + c.toNat % 64 = c.toNat := by omega
    rw [decodeFrom, lead_two (by omega) (by omega)]
    dsimp only
    rw [decodeFrom_last _ (by omega) (by simp) (by simp; omega), hbits, Char.ofNat_toNat]
  by_cases h3 : c.toNat < 0x10000
  · simp only [if_neg h1, if_neg h2, if_pos h3, List.cons_append, List.nil_append]
    have hbits : ((0xE0 + c.toNat / 4096 - 0xE0) * 64 + c.toNat / 64 % 64) * 64 + c.toNat % 64 =
        c.toNat := by omega
    rw [decodeFrom, lead_three (by omega) (by omega)]
    dsimp only
    rw [decodeFrom_owed _ (by omega) (by split <;> simp; omega) (by split <;> (simp; omega)),
      decodeFrom_last _ (by omega) (by simp) (by simp; omega), hbits, Char.ofNat_toNat]
  · simp only [if_neg h1, if_neg h2, if_neg h3, List.cons_append, List.nil_append]
    have hbits : (((0xF0 + c.toNat / 262144 - 0xF0) * 64 + c.toNat / 4096 % 64) * 64 +
        c.toNat / 64 % 64) * 64 + c.toNat % 64 = c.toNat := by omega
    rw [decodeFrom, lead_four (by omega) (by omega)]
    dsimp only
    rw [decodeFrom_owed _ (by omega) (by split <;> simp; omega) (by split <;> (simp; omega)),
      decodeFrom_owed _ (by omega) (by simp) (by simp; omega),
      decodeFrom_last _ (by omega) (by simp) (by simp; omega), hbits, Char.ofNat_toNat]

/-- **A text is read back from its octets.** -/
theorem decode_encode (cs : List Char) : decode (encode cs) = cs := by
  unfold decode
  induction cs with
  | nil => rfl
  | cons c cs ih => rw [encode_cons, decodeFrom_encodeChar, ih]

theorem decodeString_encodeString (s : String) : decodeString (encodeString s) = s := by
  rw [decodeString, encodeString, decode_encode, String.ofList_toList]

end NetconfClient.Text.Utf8
