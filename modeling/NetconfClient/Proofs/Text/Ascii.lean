/-
  NetconfClient/Proofs/Text/Ascii.lean
  ====================================
  **ASCII patterns inside UTF-8.**

  An octet below 128 is always a character of its own (`encode_eq_append_cons`),
  so an ASCII pattern stands in the octets of a text exactly where it stands in
  the text: as an infix (`infix_encode_iff`) and as a suffix
  (`suffix_encode_iff`).
-/
import NetconfClient.Proofs.Text.Utf8

namespace NetconfClient.Text.Utf8

/-- Only characters below 128. -/
def IsAscii (cs : List Char) : Prop := ∀ c ∈ cs, c.toNat < 0x80

theorem encodeChar_of_ascii {c : Char} (h : c.toNat < 0x80) :
    encodeChar c = [UInt8.ofNat c.toNat] := by
  simp only [encodeChar, if_pos h]

theorem encodeChar_ne_nil (c : Char) : encodeChar c ≠ [] := by
  unfold encodeChar
  dsimp only
  split
  · simp
  · split
    · simp
    · split <;> simp

theorem encode_eq_nil_iff {cs : List Char} : encode cs = [] ↔ cs = [] := by
  cases cs with
  | nil => simp
  | cons c cs => simp [encodeChar_ne_nil]

theorem encodeChar_injective {c d : Char} (h : encodeChar c = encodeChar d) : c = d := by
  have hone : encode [c] = encode [d] := by rw [encode_cons, encode_cons, h]
  have hdecoded := congrArg decode hone
  rw [decode_encode, decode_encode] at hdecoded
  exact List.head_eq_of_cons_eq hdecoded

/-- A longer character has no octet below 128. -/
theorem encodeChar_eq_of_mem {c : Char} {b : UInt8} (hb : b ∈ encodeChar c)
    (hlt : b.toNat < 0x80) : encodeChar c = [b] := by
  have hvalid := toNat_lt_or c
  have hoctet : ∀ n, 0x80 ≤ n → n < 256 → b ≠ UInt8.ofNat n := by
    rintro n hlow hhigh rfl
    rw [toNat_ofNat_octet hhigh] at hlt
    omega
  unfold encodeChar at hb ⊢
  dsimp only at hb ⊢
  by_cases h1 : c.toNat < 0x80
  · rw [if_pos h1] at hb ⊢
    rw [List.mem_singleton.mp hb]
  -- every other branch holds only octets from 128 on
  by_cases h2 : c.toNat < 0x800
  · rw [if_neg h1, if_pos h2] at hb
    simp only [List.mem_cons, List.not_mem_nil, or_false] at hb
    rcases hb with hb | hb
    · exact absurd hb (hoctet _ (by omega) (by omega))
    · exact absurd hb (hoctet _ (by omega) (by omega))
  by_cases h3 : c.toNat < 0x10000
  · rw [if_neg h1, if_neg h2, if_pos h3] at hb
    simp only [List.mem_cons, List.not_mem_nil, or_false] at hb
    rcases hb with hb | hb | hb
    · exact absurd hb (hoctet _ (by omega) (by omega))
    · exact absurd hb (hoctet _ (by omega) (by omega))
    · exact absurd hb (hoctet _ (by omega) (by omega))
  · rw [if_neg h1, if_neg h2, if_neg h3] at hb
    simp only [List.mem_cons, List.not_mem_nil, or_false] at hb
    rcases hb with hb | hb | hb | hb
    · exact absurd hb (hoctet _ (by omega) (by omega))
    · exact absurd hb (hoctet _ (by omega) (by omega))
    · exact absurd hb (hoctet _ (by omega) (by omega))
    · exact absurd hb (hoctet _ (by omega) (by omega))

/-- **An octet below 128 is a character of its own.** -/
theorem encode_eq_append_cons {cs : List Char} {before behind : List UInt8} {b : UInt8}
    (h : encode cs = before ++ b :: behind) (hlt : b.toNat < 0x80) :
    ∃ as c bs, cs = as ++ c :: bs ∧ encode as = before ∧ encodeChar c = [b] ∧
      encode bs = behind := by
  induction cs generalizing before with
  | nil => simp at h
  | cons d ds ih =>
    rw [encode_cons, List.append_eq_append_iff] at h
    rcases h with ⟨l, hbefore, hds⟩ | ⟨l, hd, hl⟩
    · -- the octet lies behind the first character
      obtain ⟨as, c, bs, rfl, has, hc, hbs⟩ := ih hds
      exact ⟨d :: as, c, bs, rfl, by rw [encode_cons, has, hbefore], hc, hbs⟩
    · cases l with
      | nil =>
        have hfirst : encode ds = [] ++ b :: behind := hl.symm
        obtain ⟨as, c, bs, rfl, has, hc, hbs⟩ := ih hfirst
        refine ⟨d :: as, c, bs, rfl, ?_, hc, hbs⟩
        rw [encode_cons, has, hd, List.append_nil, List.append_nil]
      | cons b' l =>
        obtain ⟨rfl, hbehind⟩ := List.cons.inj hl
        have hone : encodeChar d = [b] :=
          encodeChar_eq_of_mem (by rw [hd]; simp) hlt
        rw [hone, List.singleton_eq_append_iff] at hd
        rcases hd with ⟨rfl, hl⟩ | ⟨-, hl⟩
        · obtain rfl : l = [] := by simpa using hl
          exact ⟨[], d, ds, rfl, rfl, hone, hbehind.symm⟩
        · exact absurd hl (by simp)

theorem encode_eq_encode_append {p cs : List Char} {behind : List UInt8} (hp : IsAscii p)
    (h : encode cs = encode p ++ behind) : ∃ bs, cs = p ++ bs ∧ encode bs = behind := by
  induction p generalizing cs with
  | nil => exact ⟨cs, rfl, h⟩
  | cons d p ih =>
    have hd : d.toNat < 0x80 := hp d List.mem_cons_self
    have hoctet : (UInt8.ofNat d.toNat).toNat < 0x80 := by
      rwa [toNat_ofNat_octet (by omega)]
    have hfirst : encode cs = [] ++ UInt8.ofNat d.toNat :: (encode p ++ behind) := by
      rw [h, encode_cons, encodeChar_of_ascii hd, List.append_assoc]
      rfl
    obtain ⟨as, c, bs, rfl, has, hc, hbs⟩ := encode_eq_append_cons hfirst hoctet
    rw [encode_eq_nil_iff] at has
    rw [← encodeChar_of_ascii hd] at hc
    obtain ⟨rest, rfl, hrest⟩ := ih (fun e he => hp e (List.mem_cons_of_mem d he)) hbs
    exact ⟨rest, by rw [has, encodeChar_injective hc]; rfl, hrest⟩

/-- **Octets of an ASCII pattern are the pattern.** -/
theorem encode_eq_append_encode_append {p cs : List Char} {before behind : List UInt8}
    (hp : IsAscii p) (hne : p ≠ []) (h : encode cs = before ++ encode p ++ behind) :
    ∃ as bs, cs = as ++ p ++ bs ∧ encode as = before ∧ encode bs = behind := by
  cases p with
  | nil => exact absurd rfl hne
  | cons d p =>
    have hd : d.toNat < 0x80 := hp d List.mem_cons_self
    have hoctet : (UInt8.ofNat d.toNat).toNat < 0x80 := by
      rwa [toNat_ofNat_octet (by omega)]
    rw [encode_cons, encodeChar_of_ascii hd, List.append_assoc, List.append_assoc] at h
    obtain ⟨as, c, bs, rfl, has, hc, hbs⟩ := encode_eq_append_cons h hoctet
    rw [← encodeChar_of_ascii hd] at hc
    obtain ⟨rest, rfl, hrest⟩ :=
      encode_eq_encode_append (fun e he => hp e (List.mem_cons_of_mem d he)) hbs
    exact ⟨as, rest, by rw [encodeChar_injective hc]; simp, has, hrest⟩

theorem infix_encode_iff {p cs : List Char} (hp : IsAscii p) (hne : p ≠ []) :
    encode p <:+: encode cs ↔ p <:+: cs := by
  constructor
  · rintro ⟨before, behind, h⟩
    obtain ⟨as, bs, rfl, -, -⟩ := encode_eq_append_encode_append hp hne h.symm
    exact ⟨as, bs, rfl⟩
  · rintro ⟨as, bs, rfl⟩
    exact ⟨encode as, encode bs, by rw [encode_append, encode_append]⟩

theorem suffix_encode_iff {p cs : List Char} (hp : IsAscii p) (hne : p ≠ []) :
    encode p <:+ encode cs ↔ p <:+ cs := by
  constructor
  · rintro ⟨before, h⟩
    have hlast : encode cs = before ++ encode p ++ [] := by rw [h, List.append_nil]
    obtain ⟨as, bs, rfl, -, hbs⟩ := encode_eq_append_encode_append hp hne hlast
    rw [encode_eq_nil_iff] at hbs
    exact ⟨as, by rw [hbs, List.append_nil]⟩
  · rintro ⟨as, rfl⟩
    exact ⟨encode as, by rw [encode_append]⟩

end NetconfClient.Text.Utf8
