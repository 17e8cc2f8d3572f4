/-
  NetconfClient/Proofs/Markup/CharacterData.lean
  ==============================================
  **Which character data can be read, and as what.**

  `StandsFor` is the grammar of character data and attribute values: characters
  that stand for themselves, the five named entities, and numeric references to
  any character but the character 0.  `unescape` reads exactly what the grammar
  derives (`unescape_eq_ok_iff`).
-/
import NetconfClient.Proofs.Association
import NetconfClient.Proofs.Markup.Entity
import NetconfClient.Proofs.Text.Ascii

namespace NetconfClient.Markup

open Text Association

/-! ## 1. The grammar -/

/-- The value of hexadecimal digits behind a value. -/
def hexValue (code : Nat) (digits : List Char) : Nat :=
  digits.foldl (fun code c => code * 16 + (hexDigit? c).getD 0) code

/-- What stands between `&#` and `;`, and the code point that it names.  Leading zeros count
    towards the length. -/
inductive NamesCode : List Char → Nat → Prop
  | decimal {digits : List Char} (hdigits : ∀ c ∈ digits, c.isDigit = true)
      (hlength : digits.length ≤ 7) : NamesCode digits (Nat.ofDigitChars 10 digits 0)
  | hexadecimal {digits : List Char} (hdigits : ∀ c ∈ digits, (hexDigit? c).isSome = true)
      (hlength : digits.length ≤ 6) : NamesCode ('x' :: digits) (hexValue 0 digits)

/-- What stands between `&` and `;`, and the character that it names. -/
inductive NamesChar : List Char → Char → Prop
  | entity {name : List Char} {c : Char} (h : (name, c) ∈ named) : NamesChar name c
  | reference {digits : List Char} {c : Char} (h : NamesCode digits c.toNat) (hnull : c.toNat ≠ 0) :
      NamesChar ('#' :: digits) c

/-- Character data and the text that it stands for. -/
inductive StandsFor : List Char → List Char → Prop
  | nil : StandsFor [] []
  | plain {c : Char} {data text : List Char} (h : c ≠ '&') (rest : StandsFor data text) :
      StandsFor (c :: data) (c :: text)
  | entity {name data text : List Char} {c : Char} (h : NamesChar name c)
      (rest : StandsFor data text) : StandsFor ('&' :: (name ++ ';' :: data)) (c :: text)

/-! ## 2. Numeric references -/

theorem isAscii_of_isDigit {digits : List Char} (h : ∀ c ∈ digits, c.isDigit = true) :
    Utf8.IsAscii digits := by
  intro c hc
  have hdigit := h c hc
  simp only [Char.isDigit, Bool.and_eq_true, decide_eq_true_eq, ge_iff_le, UInt32.le_iff_toNat_le] at hdigit
  have hhigh : c.toNat ≤ 57 := hdigit.2
  omega

theorem toNat_lt_of_hexDigit? {c : Char} (h : (hexDigit? c).isSome = true) : c.toNat < 0x80 := by
  simp only [hexDigit?] at h
  split at h
  · next hc => exact Nat.lt_of_le_of_lt (show c.toNat ≤ '9'.toNat from hc.2) (by decide)
  · split at h
    · next hc => exact Nat.lt_of_le_of_lt (show c.toNat ≤ 'f'.toNat from hc.2) (by decide)
    · split at h
      · next hc => exact Nat.lt_of_le_of_lt (show c.toNat ≤ 'F'.toNat from hc.2) (by decide)
      · simp at h

theorem size_of_isAscii {cs : List Char} (h : Utf8.IsAscii cs) : Utf8.size cs = cs.length := by
  induction cs with
  | nil => rfl
  | cons c cs ih =>
    have hc : Utf8.charSize c = 1 := by
      rw [Utf8.charSize, Utf8.encodeChar_of_ascii (h c List.mem_cons_self)]
      rfl
    have hrest := ih fun d hd => h d (List.mem_cons_of_mem c hd)
    rw [Utf8.size_cons, hc, hrest, List.length_cons, Nat.add_comm]

theorem readDecimal_eq_ok_iff {code n : Nat} {digits : List Char} :
    readDecimal code digits = .ok n ↔
      (∀ c ∈ digits, c.isDigit = true) ∧ n = Nat.ofDigitChars 10 digits code := by
  induction digits generalizing code with
  | nil =>
    rw [readDecimal, Nat.ofDigitChars_nil, Except.ok.injEq]
    exact ⟨fun h => ⟨nofun, h.symm⟩, fun h => h.2.symm⟩
  | cons c digits ih =>
    rw [readDecimal, Nat.ofDigitChars_cons, Nat.mul_comm 10 code, List.forall_mem_cons]
    split
    · next hc => rw [ih, and_iff_right hc]
    · next hc => simp [hc]

theorem readHexadecimal_eq_ok_iff {code n : Nat} {digits : List Char} :
    readHexadecimal code digits = .ok n ↔
      (∀ c ∈ digits, (hexDigit? c).isSome = true) ∧ n = hexValue code digits := by
  induction digits generalizing code with
  | nil =>
    rw [readHexadecimal, hexValue, List.foldl_nil, Except.ok.injEq]
    exact ⟨fun h => ⟨nofun, h.symm⟩, fun h => h.2.symm⟩
  | cons c digits ih =>
    rw [readHexadecimal, List.forall_mem_cons]
    cases hc : hexDigit? c with
    | some d =>
      dsimp only
      rw [ih, Option.isSome_some, and_iff_right rfl, hexValue, hexValue, List.foldl_cons, hc,
        Option.getD_some]
    | none => simp

theorem readCode_eq_ok_iff {digits : List Char} {code : Nat} :
    readCode digits = .ok code ↔ NamesCode digits code := by
  constructor
  · intro h
    unfold readCode at h
    split at h
    · next hex =>
      split at h
      · cases h
      · next hsize =>
        obtain ⟨hdigits, rfl⟩ := readHexadecimal_eq_ok_iff.mp h
        rw [size_of_isAscii fun c hc => toNat_lt_of_hexDigit? (hdigits c hc)] at hsize
        exact .hexadecimal hdigits (Nat.le_of_not_lt hsize)
    · split at h
      · cases h
      · next hsize =>
        obtain ⟨hdigits, rfl⟩ := readDecimal_eq_ok_iff.mp h
        rw [size_of_isAscii (isAscii_of_isDigit hdigits)] at hsize
        exact .decimal hdigits (Nat.le_of_not_lt hsize)
  · intro h
    cases h with
    | decimal hdigits hlength =>
      rw [← size_of_isAscii (isAscii_of_isDigit hdigits)] at hlength
      unfold readCode
      split
      · exact absurd (hdigits 'x' List.mem_cons_self) (by decide)
      · rw [if_neg (Nat.not_lt.mpr hlength)]
        exact readDecimal_eq_ok_iff.mpr ⟨hdigits, rfl⟩
    | hexadecimal hdigits hlength =>
      rw [← size_of_isAscii fun c hc => toNat_lt_of_hexDigit? (hdigits c hc)] at hlength
      rw [readCode, if_neg (Nat.not_lt.mpr hlength)]
      exact readHexadecimal_eq_ok_iff.mpr ⟨hdigits, rfl⟩

theorem readReference_eq_ok_iff {start stop : Nat} {digits : List Char} {c : Char} :
    readReference start stop digits = .ok c ↔ NamesCode digits c.toNat ∧ c.toNat ≠ 0 := by
  constructor
  · intro h
    rw [readReference] at h
    cases hcode : readCode digits with
    | error _ =>
      rw [hcode] at h
      cases h
    | ok code =>
      rw [hcode] at h
      dsimp only at h
      by_cases hnull : code = 0
      · rw [if_pos hnull] at h
        cases h
      · rw [if_neg hnull] at h
        by_cases hvalid : code.isValidChar
        · rw [dif_pos hvalid] at h
          have hc : c.toNat = code := by
            rw [← Except.ok.inj h]
            rfl
          rw [hc]
          exact ⟨readCode_eq_ok_iff.mp hcode, hnull⟩
        · rw [dif_neg hvalid] at h
          cases h
  · rintro ⟨hcode, hnull⟩
    have hvalid : c.toNat.isValidChar := c.valid
    rw [readReference, readCode_eq_ok_iff.mpr hcode]
    dsimp only
    rw [if_neg hnull, dif_pos hvalid]
    rfl

/-! ## 3. Entities and texts -/

theorem notMem_of_mem_named {entry : List Char × Char} (h : entry ∈ named) :
    entry.1.head? ≠ some '#' ∧ '&' ∉ entry.1 ∧ ';' ∉ entry.1 := by
  have hall : named.all fun entry =>
      entry.1.head? ≠ some '#' ∧ '&' ∉ entry.1 ∧ ';' ∉ entry.1 := by decide
  exact of_decide_eq_true (List.all_eq_true.mp hall entry h)

theorem resolve_eq_ok_iff {start stop : Nat} {name : List Char} {c : Char} :
    resolve start stop name = .ok c ↔ NamesChar name c := by
  constructor
  · intro h
    unfold resolve at h
    split at h
    · next digits =>
      obtain ⟨hcode, hnull⟩ := readReference_eq_ok_iff.mp h
      exact .reference hcode hnull
    · split at h
      · next d hlookup =>
        rw [← Except.ok.inj h]
        exact .entity (mem_of_lookup hlookup)
      · cases h
  · intro h
    cases h with
    | reference hcode hnull => exact readReference_eq_ok_iff.mpr ⟨hcode, hnull⟩
    | entity hmem =>
      have hdistinct : (named.map (·.1)).Nodup := by decide
      have hlookup := (lookup_eq_some_iff_mem hdistinct).mpr hmem
      unfold resolve
      split
      · exact absurd rfl (notMem_of_mem_named hmem).1
      · rw [hlookup]

theorem NamesCode.valid {digits : List Char} {code : Nat} (h : NamesCode digits code) :
    ∀ c ∈ digits, c = 'x' ∨ c.isDigit = true ∨ (hexDigit? c).isSome = true := by
  intro c hc
  cases h with
  | decimal hdigits _ => exact .inr (.inl (hdigits c hc))
  | hexadecimal hdigits _ =>
    rcases List.mem_cons.mp hc with rfl | hc
    · exact .inl rfl
    · exact .inr (.inr (hdigits c hc))

/-- What names a character holds neither of the marks around an entity. -/
theorem NamesChar.notMem {name : List Char} {c : Char} (h : NamesChar name c) :
    '&' ∉ name ∧ ';' ∉ name := by
  cases h with
  | entity hmem => exact (notMem_of_mem_named hmem).2
  | reference hcode hnull =>
    constructor
    all_goals
      rw [List.mem_cons, not_or]
      refine ⟨by decide, ?_⟩
      intro hmem
      exact absurd (hcode.valid _ hmem) (by decide)

/-- A reader inside an entity resolves what stands in front of the next `;`. -/
theorem unescapeFrom_entity {name : List Char} (hopen : '&' ∉ name) (hclose : ';' ∉ name)
    (total start pos : Nat) (reversed : List Char) :
    ∃ stop next, ∀ rest, unescapeFrom total (.entity start reversed) pos (name ++ ';' :: rest) =
      match resolve start stop (reversed.reverse ++ name) with
      | .ok d => (unescapeFrom total .text next rest).map (d :: ·)
      | .error e => .error e := by
  induction name generalizing pos reversed with
  | nil =>
    refine ⟨pos, pos + 1, ?_⟩
    intro rest
    rw [List.nil_append, List.append_nil]
    exact if_pos rfl
  | cons c name ih =>
    rw [List.mem_cons, not_or] at hopen hclose
    obtain ⟨stop, next, hread⟩ := ih hopen.2 hclose.2 (pos + Utf8.charSize c) (c :: reversed)
    refine ⟨stop, next, ?_⟩
    intro rest
    rw [List.cons_append, unescapeFrom, if_neg (Ne.symm hclose.1), if_neg (Ne.symm hopen.1), hread]
    simp

theorem unescapeFrom_of_standsFor {data text : List Char} (h : StandsFor data text)
    (total pos : Nat) : unescapeFrom total .text pos data = .ok text := by
  induction h generalizing pos with
  | nil => rfl
  | plain hc _ ih =>
    rw [unescapeFrom, if_neg hc, ih]
    rfl
  | entity hname _ ih =>
    obtain ⟨hopen, hclose⟩ := hname.notMem
    obtain ⟨stop, next, hread⟩ := unescapeFrom_entity hopen hclose total pos (pos + 1) []
    rw [unescapeFrom, if_pos rfl, hread, List.reverse_nil, List.nil_append,
      resolve_eq_ok_iff.mpr hname]
    dsimp only
    rw [ih]
    rfl

theorem exists_of_map_cons {ε : Type} {c : Char} {result : Except ε (List Char)} {text : List Char}
    (h : result.map (c :: ·) = .ok text) : ∃ back, result = .ok back ∧ c :: back = text := by
  cases result with
  | error e => cases h
  | ok back => exact ⟨back, rfl, Except.ok.inj h⟩

/-- An entity that is read has an end, and what is inside it has been resolved. -/
theorem exists_of_entity {total start pos : Nat} {reversed data text : List Char}
    (h : unescapeFrom total (.entity start reversed) pos data = .ok text) :
    ∃ name rest c back next, data = name ++ ';' :: rest ∧ text = c :: back ∧
      NamesChar (reversed.reverse ++ name) c ∧ unescapeFrom total .text next rest = .ok back := by
  induction data generalizing pos reversed with
  | nil => cases h
  | cons d data ih =>
    simp only [unescapeFrom] at h
    split at h
    · next hd =>
      subst hd
      split at h
      · next c hc =>
        obtain ⟨back, hback, rfl⟩ := exists_of_map_cons h
        refine ⟨[], data, c, back, pos + 1, rfl, rfl, ?_, hback⟩
        rw [List.append_nil]
        exact resolve_eq_ok_iff.mp hc
      · cases h
    · split at h
      · cases h
      · obtain ⟨name, rest, c, back, next, rfl, rfl, hname, hback⟩ := ih h
        refine ⟨d :: name, rest, c, back, next, rfl, rfl, ?_, hback⟩
        rwa [List.reverse_cons, List.append_assoc] at hname

theorem standsFor_of_unescapeFrom {total pos : Nat} {data text : List Char}
    (h : unescapeFrom total .text pos data = .ok text) : StandsFor data text := by
  -- an entity takes more than one character, so the induction is on the length
  induction hlength : data.length using Nat.strong_induction_on generalizing data text pos with
  | _ n ih =>
    subst hlength
    cases data with
    | nil =>
      cases h
      exact .nil
    | cons c data =>
      rw [unescapeFrom] at h
      split at h
      · next hc =>
        subst hc
        obtain ⟨name, rest, d, back, next, rfl, rfl, hname, hback⟩ := exists_of_entity h
        exact .entity hname (ih rest.length (by simp; omega) hback rfl)
      · next hc =>
        obtain ⟨back, hback, rfl⟩ := exists_of_map_cons h
        exact .plain hc (ih data.length (Nat.lt_succ_self _) hback rfl)

/-- **Exactly the character data of the grammar can be read, and as the text it stands for.** -/
theorem unescape_eq_ok_iff {data text : List Char} :
    unescape data = .ok text ↔ StandsFor data text := by
  constructor
  · intro h
    exact standsFor_of_unescapeFrom h
  · intro h
    exact unescapeFrom_of_standsFor h _ 0

/-- Whether character data can be read. -/
def Readable (data : List Char) : Prop := ∃ text, StandsFor data text

theorem unescape_of_not_readable {data : List Char} (h : ¬ Readable data) :
    ∃ e, unescape data = .error e := by
  cases hread : unescape data with
  | ok text => exact absurd ⟨text, unescape_eq_ok_iff.mp hread⟩ h
  | error e => exact ⟨e, rfl⟩

theorem isOk_unescape_iff {data : List Char} : (unescape data).isOk = true ↔ Readable data := by
  constructor
  · intro h
    cases hread : unescape data with
    | ok text => exact ⟨text, unescape_eq_ok_iff.mp hread⟩
    | error e =>
      rw [hread] at h
      cases h
  · rintro ⟨text, h⟩
    rw [unescape_eq_ok_iff.mpr h]
    rfl

instance (data : List Char) : Decidable (Readable data) := decidable_of_iff _ isOk_unescape_iff

/-- Escaped text stands for the text. -/
theorem standsFor_escape (text : List Char) : StandsFor (escape text) text :=
  unescape_eq_ok_iff.mp (unescape_escape text)

end NetconfClient.Markup
