/-
  NetconfClient/Proofs/Text/Decimal.lean
  ======================================
  **Printed numbers are read back.**

  `Nat.toDigits 10` writes a number without a superfluous zero, and
  `Unsigned.parse` reads that text as the number wherever the bound allows it
  (`parse_toDigits`): the values on the way grow, so none passes the bound
  before the last.  No other text without a superfluous zero stands for the
  number (`toDigits_ofDigitChars`).
-/
import Mathlib.Data.Char
import Mathlib.Data.List.Induction
import NetconfClient.Text.Unsigned

namespace NetconfClient.Text.Unsigned

/-! ## 1. Reading digits -/

theorem le_ofDigitChars (cs : List Char) (value : Nat) : value ≤ Nat.ofDigitChars 10 cs value := by
  induction cs generalizing value with
  | nil => exact Nat.le_of_eq Nat.ofDigitChars_nil.symm
  | cons c cs ih =>
    rw [Nat.ofDigitChars_cons]
    have hrest := ih (10 * value + (c.toNat - '0'.toNat))
    omega

theorem readDigits_eq_ofDigitChars {bound value : Nat} {cs : List Char}
    (hdigits : ∀ c ∈ cs, c.isDigit = true) (hbound : Nat.ofDigitChars 10 cs value ≤ bound) :
    readDigits bound value cs = .ok (Nat.ofDigitChars 10 cs value) := by
  induction cs generalizing value with
  | nil => rw [Nat.ofDigitChars_nil, readDigits]
  | cons c cs ih =>
    rw [Nat.ofDigitChars_cons, Nat.mul_comm] at hbound ⊢
    have hnext := le_ofDigitChars cs (value * 10 + (c.toNat - '0'.toNat))
    rw [readDigits, if_pos (hdigits c List.mem_cons_self), if_pos (Nat.le_trans hnext hbound)]
    exact ih (fun d hd => hdigits d (List.mem_cons_of_mem c hd)) hbound

/-- The number that is read is the value of the digits. -/
theorem eq_ofDigitChars_of_readDigits {bound value n : Nat} {cs : List Char}
    (hvalue : value ≤ bound) (h : readDigits bound value cs = .ok n) :
    n = Nat.ofDigitChars 10 cs value ∧ n ≤ bound := by
  induction cs generalizing value with
  | nil =>
    simp only [readDigits, Except.ok.injEq] at h
    subst h
    exact ⟨Nat.ofDigitChars_nil.symm, hvalue⟩
  | cons c cs ih =>
    simp only [readDigits] at h
    split at h
    · split at h
      · next hnext =>
        rw [Nat.ofDigitChars_cons, Nat.mul_comm]
        exact ih hnext h
      · simp at h
    · simp at h

/-- A text that begins with a digit has no sign in front. -/
theorem parse_eq_readDigits {bound : Nat} {cs : List Char} (hne : cs ≠ [])
    (hdigits : ∀ c ∈ cs, c.isDigit = true) : parse bound cs = readDigits bound 0 cs := by
  have hsign : '+' ∉ cs := fun h => absurd (hdigits _ h) (by decide)
  unfold parse
  split
  · exact absurd rfl hne
  · exact absurd List.mem_cons_self hsign
  · exact absurd List.mem_cons_self hsign
  · rfl

/-- A text that stands for a number: digits, or digits behind one plus sign. -/
inductive Writes : List Char → Nat → Prop
  | digits {cs : List Char} (hne : cs ≠ []) (hdigits : ∀ c ∈ cs, c.isDigit = true) :
      Writes cs (Nat.ofDigitChars 10 cs 0)
  | signed {cs : List Char} (hne : cs ≠ []) (hdigits : ∀ c ∈ cs, c.isDigit = true) :
      Writes ('+' :: cs) (Nat.ofDigitChars 10 cs 0)

theorem digits_of_readDigits {bound value n : Nat} {cs : List Char}
    (h : readDigits bound value cs = .ok n) : ∀ c ∈ cs, c.isDigit = true := by
  induction cs generalizing value with
  | nil => simp
  | cons c cs ih =>
    simp only [readDigits] at h
    split at h
    · next hc =>
      split at h
      · exact List.forall_mem_cons.mpr ⟨hc, ih h⟩
      · simp at h
    · simp at h

/-- **The texts that are read are those that stand for a number within the bound.** -/
theorem parse_eq_ok_iff {bound n : Nat} {cs : List Char} :
    parse bound cs = .ok n ↔ Writes cs n ∧ n ≤ bound := by
  constructor
  · intro h
    unfold parse at h
    split at h
    · simp at h
    · simp at h
    · next digits hne =>
      obtain ⟨rfl, hbound⟩ := eq_ofDigitChars_of_readDigits (Nat.zero_le bound) h
      exact ⟨.signed hne (digits_of_readDigits h), hbound⟩
    · next hne _ _ =>
      obtain ⟨rfl, hbound⟩ := eq_ofDigitChars_of_readDigits (Nat.zero_le bound) h
      exact ⟨.digits hne (digits_of_readDigits h), hbound⟩
  · rintro ⟨hwrites, hbound⟩
    rcases hwrites with ⟨hne, hdigits⟩ | ⟨hne, hdigits⟩
    · rw [parse_eq_readDigits hne hdigits, readDigits_eq_ofDigitChars hdigits hbound]
    · obtain ⟨c, cs, rfl⟩ := List.exists_cons_of_ne_nil hne
      simp only [parse, readDigits_eq_ofDigitChars hdigits hbound]

/-! ## 2. Printed numbers -/

/-- **A printed number is read back.** -/
theorem parse_toDigits {bound n : Nat} (h : n ≤ bound) :
    parse bound (Nat.toDigits 10 n) = .ok n := by
  have hdigits : ∀ c ∈ Nat.toDigits 10 n, c.isDigit = true := fun c hc =>
    Nat.isDigit_of_mem_toDigits (by decide) (by decide) hc
  have hvalue : Nat.ofDigitChars 10 (Nat.toDigits 10 n) 0 = n := Nat.ofDigitChars_ten_toDigits
  rw [parse_eq_readDigits Nat.toDigits_ne_nil hdigits,
    readDigits_eq_ofDigitChars hdigits (by rwa [hvalue]), hvalue]

theorem digitChar_sub_zero {c : Char} (h : c.isDigit = true) :
    c.toNat - '0'.toNat < 10 ∧ (c.toNat - '0'.toNat).digitChar = c := by
  have hrange : 48 ≤ c.toNat ∧ c.toNat ≤ 57 := by
    simpa [Char.isDigit, UInt32.le_iff_toNat_le] using h
  have hzero : '0'.toNat = 48 := rfl
  have hlt : c.toNat - '0'.toNat < 10 := by omega
  refine ⟨hlt, Char.toNat_inj.mp ?_⟩
  rw [Nat.toNat_digitChar_of_lt_ten hlt]
  omega

/-- **Digits without a superfluous zero are the printed form of their value.** -/
theorem toDigits_ofDigitChars {cs : List Char} (hne : cs ≠ [])
    (hdigits : ∀ c ∈ cs, c.isDigit = true) (hlead : cs.head? = some '0' → cs = ['0']) :
    Nat.toDigits 10 (Nat.ofDigitChars 10 cs 0) = cs := by
  induction cs using List.reverseRecOn with
  | nil => exact absurd rfl hne
  | append_singleton front c ih =>
    obtain ⟨hlt, hchar⟩ := digitChar_sub_zero (hdigits c (by simp))
    by_cases hfront : front = []
    · rw [hfront, List.nil_append, Nat.ofDigitChars_cons, Nat.ofDigitChars_nil, Nat.mul_zero,
        Nat.zero_add, Nat.toDigits_of_lt_base hlt, hchar]
    · have hhead : front.head? ≠ some '0' := by
        intro hzero
        have hlen := congrArg List.length (hlead (by simp [List.head?_append, hzero]))
        simp [hfront] at hlen
      have hprinted : Nat.toDigits 10 (Nat.ofDigitChars 10 front 0) = front :=
        ih hfront (fun d hd => hdigits d (by simp [hd])) fun hzero => absurd hzero hhead
      -- in front of a further digit stands a number that is not zero
      have hpos : 0 < Nat.ofDigitChars 10 front 0 := by
        refine Nat.pos_of_ne_zero fun hzero => hhead ?_
        rw [← hprinted, hzero]
        rfl
      rw [Nat.ofDigitChars_append, Nat.ofDigitChars_cons, Nat.ofDigitChars_nil,
        ← Nat.toDigits_append_toDigits (by decide) hpos hlt, hprinted,
        Nat.toDigits_of_lt_base hlt, hchar]

/-- Only zero is printed with a zero in front. -/
theorem head?_toDigits {n : Nat} (h : (Nat.toDigits 10 n).head? = some '0') : n = 0 := by
  induction n using Nat.base_induction 10 (by decide) with
  | single m hm =>
    have hdigit : ∀ d < 10, [Nat.digitChar d].head? = some '0' → d = 0 := by decide
    rw [Nat.toDigits_of_lt_base hm] at h
    exact hdigit m hm h
  | digit m k hk hm ih =>
    rw [← Nat.toDigits_append_toDigits (by decide) hm hk,
      List.head?_append, List.head?_eq_some_head Nat.toDigits_ne_nil, Option.some_or,
      ← List.head?_eq_some_head] at h
    exact absurd (ih h) (Nat.ne_of_gt hm)

theorem length_toDigits_le_ten {n : Nat} (h : n ≤ max32) : (Nat.toDigits 10 n).length ≤ 10 := by
  rw [Nat.length_toDigits_le_iff (by decide) (by decide)]
  exact Nat.lt_of_le_of_lt h (by decide)

end NetconfClient.Text.Unsigned
