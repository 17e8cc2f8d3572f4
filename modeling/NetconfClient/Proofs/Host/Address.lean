/-
  NetconfClient/Proofs/Host/Address.lean
  ======================================
  **What an address may look like.**

  `Form` lists the ways to write a host name and perhaps the text of a port, and
  `Address.Spells` says what such a text stands for: the name may not be empty, and
  the text of the port has to be a number of 16 bits (`Unsigned.Writes`).

    * `divide_eq_ok_iff`: a text is divided as its form says, in one way only;
    * `read_eq_ok_iff`: what is read is what the text spells, and every text that
      spells something is read;
    * `reads_its_grammar`: so it is for the address on the command line, where the
      fault of every other text quotes it; a name and a port that are put together
      with brackets, or without them, are read back under just the conditions that
      keep the brackets and the colons apart.

  An address with several colons and no brackets is all name.  A missing port is
  no port, and an empty one is refused: `[::1]:` is no address.
-/
import NetconfClient.Host.Address
import NetconfClient.Proofs.Text.Decimal

namespace NetconfClient.Address

open Text Text.Unsigned

/-! ## 1. The forms of an address -/

/-- The ways to write a name and the text of a port, in the order in which they are tried. -/
inductive Form : List Char → List Char → Option (List Char) → Prop
  | bracketed {name : List Char} (hname : ']' ∉ name) :
      Form ('[' :: (name ++ [']'])) name none
  | bracketedPort {name port : List Char} (hname : ']' ∉ name) :
      Form ('[' :: (name ++ ']' :: ':' :: port)) name (some port)
  | plainPort {name port : List Char} (hbare : (name ++ ':' :: port).head? ≠ some '[')
      (hone : (name ++ ':' :: port).count ':' = 1) : Form (name ++ ':' :: port) name (some port)
  | plain {name : List Char} (hbare : name.head? ≠ some '[')
      (hcolons : name.count ':' = 0 ∨ 2 ≤ name.count ':') : Form name name none

/-- What the text of a port says, if there is one. -/
inductive SaysPort : Option (List Char) → Option Nat → Prop
  | none : SaysPort none none
  | some {port : List Char} {n : Nat} (hport : Writes port n) (hbound : n ≤ 65535) :
      SaysPort (some port) (some n)

/-- The text is an address with that name and that port. -/
def Spells (cs : List Char) (address : Address) : Prop :=
  ∃ port, Form cs address.name.toList port ∧ address.name ≠ "" ∧ SaysPort port address.port

variable {cs name : List Char} {text : Option (List Char)}

/-! ## 2. The two parts -/

theorem divide_bare (hbare : cs.head? ≠ some '[') :
    divide cs = if cs.count ':' = 1 then .ok (cut ':' cs) else .ok (cs, none) := by
  unfold divide
  split
  · exact absurd rfl hbare
  · rfl

/-- The colon that divides is the only one. -/
theorem notMem_of_count_eq_one {c : Char} {front back : List Char}
    (hone : (front ++ c :: back).count c = 1) : c ∉ front := by
  intro hmem
  have hcount := List.count_pos_iff.mpr hmem
  rw [List.count_append, List.count_cons_self] at hone
  omega

theorem divide_of_form (h : Form cs name text) :
    divide cs = .ok (name, text) := by
  cases h with
  | bracketed hname => simp only [divide, cut_append_cons [] hname]
  | bracketedPort hname => simp only [divide, cut_append_cons _ hname]
  | plainPort hbare hone =>
    rename_i port
    rw [divide_bare hbare, if_pos hone, cut_append_cons port (notMem_of_count_eq_one hone)]
  | plain hbare hcolons =>
    have hone : cs.count ':' ≠ 1 := by omega
    rw [divide_bare hbare, if_neg hone]

theorem form_of_divide_bracketed {rest : List Char} (h : divide ('[' :: rest) = .ok (name, text)) :
    Form ('[' :: rest) name text := by
  simp only [divide] at h
  rcases hcut : cut ']' rest with ⟨front, _ | back⟩
  · simp [hcut] at h
  · obtain ⟨rfl, hfront⟩ := eq_append_of_cut hcut
    rw [hcut] at h
    rcases back with _ | ⟨c, port⟩
    · simp only [Except.ok.injEq, Prod.mk.injEq] at h
      obtain ⟨rfl, rfl⟩ := h
      exact .bracketed hfront
    · by_cases hc : c = ':'
      · subst hc
        simp only [Except.ok.injEq, Prod.mk.injEq] at h
        obtain ⟨rfl, rfl⟩ := h
        exact .bracketedPort hfront
      · simp [hc] at h

theorem form_of_divide_bare (hbare : cs.head? ≠ some '[') (h : divide cs = .ok (name, text)) :
    Form cs name text := by
  rw [divide_bare hbare] at h
  by_cases hone : cs.count ':' = 1
  · rw [if_pos hone, Except.ok.injEq] at h
    rcases text with _ | port
    · -- a text with a colon is cut
      have hnone := (eq_of_cut h).2
      rw [List.count_eq_zero.mpr hnone] at hone
      exact absurd hone (by decide)
    · obtain ⟨rfl, -⟩ := eq_append_of_cut h
      exact .plainPort hbare hone
  · rw [if_neg hone] at h
    simp only [Except.ok.injEq, Prod.mk.injEq] at h
    obtain ⟨rfl, rfl⟩ := h
    exact .plain hbare (by omega)

theorem form_of_divide (h : divide cs = .ok (name, text)) : Form cs name text := by
  by_cases hbare : cs.head? = some '['
  · obtain ⟨rest, rfl⟩ := List.head?_eq_some_iff.mp hbare
    exact form_of_divide_bracketed h
  · exact form_of_divide_bare hbare h

/-- **A text is divided as its form says.** -/
theorem divide_eq_ok_iff : divide cs = .ok (name, text) ↔ Form cs name text :=
  ⟨form_of_divide, divide_of_form⟩

/-! ## 3. What is read -/

theorem readPort_eq_ok_iff {n : Option Nat} :
    readPort text = .ok n ↔ SaysPort text n := by
  constructor
  · intro h
    rcases text with _ | port
    · simp only [readPort, Except.ok.injEq] at h
      exact h ▸ .none
    · simp only [readPort] at h
      rcases hparse : Unsigned.parse max16 port with cause | value
      · simp [hparse] at h
      · simp only [hparse, Except.ok.injEq] at h
        obtain ⟨hwrites, hbound⟩ := parse_eq_ok_iff.mp hparse
        exact h ▸ .some hwrites hbound
  · intro h
    rcases h with _ | ⟨hwrites, hbound⟩
    · rfl
    · have hparse := parse_eq_ok_iff.mpr ⟨hwrites, hbound⟩
      simp only [readPort, max16, hparse]

theorem read_of_divide (h : divide cs = .ok (name, text)) (hname : name ≠ []) :
    read cs = (readPort text).map fun port => ⟨String.ofList name, port⟩ := by
  obtain ⟨c, rest, rfl⟩ := List.exists_cons_of_ne_nil hname
  simp only [read, h]
  rcases readPort text with cause | port
  · rfl
  · rfl

/-- **What is read is what the text spells.** -/
theorem read_eq_ok_iff {address : Address} : read cs = .ok address ↔ Spells cs address := by
  obtain ⟨name, port⟩ := address
  constructor
  · intro h
    rcases hdivide : divide cs with cause | ⟨front, text⟩
    · simp [read, hdivide] at h
    · by_cases hfront : front = []
      · simp [read, hdivide, hfront] at h
      · rw [read_of_divide hdivide hfront] at h
        rcases hport : readPort text with cause | n
        · simp [hport, Except.map] at h
        · simp only [hport, Except.map, Except.ok.injEq, mk.injEq] at h
          obtain ⟨rfl, rfl⟩ := h
          refine ⟨text, ?_, ?_, readPort_eq_ok_iff.mp hport⟩
          · rw [String.toList_ofList]
            exact divide_eq_ok_iff.mp hdivide
          · exact fun hempty => hfront (String.ofList_eq_empty_iff.mp hempty)
  · rintro ⟨text, hform, hname, hport⟩
    have hne : name.toList ≠ [] := fun hnil => hname (String.toList_eq_nil_iff.mp hnil)
    have hread := read_of_divide (divide_eq_ok_iff.mpr hform) hne
    rwa [readPort_eq_ok_iff.mpr hport, String.ofList_toList] at hread

/-! ## 4. Addresses as they are given -/

/-- Reading is `read` with the text quoted in every fault. -/
theorem parse_eq_ok_iff_spells {given : String} {address : Address} :
    parse given = .ok address ↔ Spells given.toList address := by
  rw [← read_eq_ok_iff]
  unfold parse
  split <;> simp_all

theorem parse_eq_error {given : String} (h : ∀ address, ¬ Spells given.toList address) :
    ∃ reason, parse given = .error (.other ("Invalid host '" ++ given ++ "': " ++ reason)) := by
  rcases hread : read given.toList with cause | address
  · exact ⟨cause.message, by simp only [parse, hread, fault]⟩
  · exact absurd (read_eq_ok_iff.mp hread) (h address)

theorem writes_toString (n : Nat) : Writes (toString n).toList n := by
  have hparse := parse_toDigits (Nat.le_refl n)
  rw [← Nat.toList_repr] at hparse
  exact (parse_eq_ok_iff.mp hparse).1

theorem spells_bracketed {name : String} {n : Nat} (hname : name ≠ "") (hn : n ≤ 65535)
    (hclosed : ']' ∉ name.toList) :
    Spells ("[" ++ name ++ "]:" ++ toString n).toList ⟨name, some n⟩ := by
  refine ⟨some (toString n).toList, ?_, hname, .some (writes_toString n) hn⟩
  have htext : ("[" ++ name ++ "]:" ++ toString n).toList =
      '[' :: (name.toList ++ ']' :: ':' :: (toString n).toList) := by simp
  rw [htext]
  exact .bracketedPort hclosed

/-- No digit is a colon, so a port in decimal brings none. -/
theorem colon_notMem_toString (n : Nat) : ':' ∉ (toString n).toList := by
  intro hmem
  rw [show (toString n).toList = Nat.toDigits 10 n from Nat.toList_repr] at hmem
  exact absurd (Nat.isDigit_of_mem_toDigits (by decide) (by decide) hmem) (by decide)

theorem spells_plain_iff {name : String} {n : Nat} (hname : name ≠ "") (hn : n ≤ 65535) :
    Spells (name ++ ":" ++ toString n).toList ⟨name, some n⟩ ↔
      ':' ∉ name.toList ∧ name.toList.head? ≠ some '[' := by
  have htext : (name ++ ":" ++ toString n).toList =
      name.toList ++ ':' :: (toString n).toList := by simp
  have hcolon := colon_notMem_toString n
  have hhead : (name.toList ++ ':' :: (toString n).toList).head? = name.toList.head? := by
    have hne : name.toList ≠ [] := fun hnil => hname (String.toList_eq_nil_iff.mp hnil)
    rw [List.head?_append, List.head?_eq_some_head hne, Option.some_or]
  rw [htext]
  constructor
  · rintro ⟨port, hform, -, hport⟩
    generalize hcs : name.toList ++ ':' :: (toString n).toList = cs at hform hhead
    rcases hport with _ | ⟨hport, hbound⟩
    cases hform with
    | bracketedPort hclosed =>
      rename_i port
      have hsplit : (name.toList ++ [':']) ++ (toString n).toList =
          ('[' :: name.toList) ++ (']' :: ':' :: port) := by simpa using hcs
      have hlength := congrArg List.length hcs
      simp only [List.length_append, List.length_cons] at hlength
      -- counted from the end, a colon would have to stand among the digits
      have hdigits := (List.append_inj' hsplit (by simp only [List.length_cons]; omega)).2
      rw [hdigits] at hcolon
      exact absurd (by simp) hcolon
    | plainPort hbare hone =>
      rw [hhead] at hbare
      exact ⟨notMem_of_count_eq_one hone, hbare⟩
  · rintro ⟨hfree, hbare⟩
    refine ⟨some (toString n).toList, .plainPort ?_ ?_, hname, .some (writes_toString n) hn⟩
    · rwa [hhead]
    · rw [List.count_append, List.count_cons_self, List.count_eq_zero.mpr hfree,
        List.count_eq_zero.mpr hcolon]

/-- **Addresses are read by their grammar.**  A text is read as an address exactly
    when it spells that address, and the fault of every other text quotes it.  So a
    name and a port come back from `[name]:port` if no bracket closes in the name,
    and from `name:port` exactly if the name has no colon and opens no bracket. -/
theorem reads_its_grammar :
    (∀ (text : String) (address : Address),
      parse text = .ok address ↔ Spells text.toList address) ∧
    (∀ text : String, (∀ address, ¬ Spells text.toList address) →
      ∃ reason, parse text = .error (.other ("Invalid host '" ++ text ++ "': " ++ reason))) ∧
    ∀ (name : String) (port : Nat), name ≠ "" → port ≤ 65535 →
      (']' ∉ name.toList →
        parse ("[" ++ name ++ "]:" ++ toString port) = .ok ⟨name, some port⟩) ∧
      (parse (name ++ ":" ++ toString port) = .ok ⟨name, some port⟩ ↔
        ':' ∉ name.toList ∧ name.toList.head? ≠ some '[') := by
  refine ⟨fun text address => parse_eq_ok_iff_spells, fun text h => parse_eq_error h, ?_⟩
  intro name port hname hport
  constructor
  · intro hclosed
    exact parse_eq_ok_iff_spells.mpr (spells_bracketed hname hport hclosed)
  · rw [parse_eq_ok_iff_spells]
    exact spells_plain_iff hname hport

/-- An address of IPv6 takes its port in brackets only, and 70000 is no port. -/
theorem reads_its_grammar_colons :
    parse "[fe80::1]:830" = .ok ⟨"fe80::1", some 830⟩ ∧
    parse "fe80::1:830" ≠ .ok ⟨"fe80::1", some 830⟩ ∧
    ∃ reason, parse "router:70000" =
      .error (.other ("Invalid host '" ++ "router:70000" ++ "': " ++ reason)) := by
  obtain ⟨hspelt, hrefused, hport⟩ := reads_its_grammar
  obtain ⟨hbracketed, hplain⟩ := hport "fe80::1" 830 (by decide) (by decide)
  refine ⟨hbracketed (by decide), fun h => absurd (hplain.mp h).1 (by decide), hrefused _ ?_⟩
  intro address hspells
  have hread : parse "router:70000" = .error (fault "router:70000" (.badPort .tooLarge)) := rfl
  rw [(hspelt _ _).mpr hspells] at hread
  cases hread

end NetconfClient.Address
