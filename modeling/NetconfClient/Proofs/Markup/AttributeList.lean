/-
  NetconfClient/Proofs/Markup/AttributeList.lean
  ==============================================
  **The attributes of a tag that is written are read back.**

  Each attribute is read off whatever follows it (`readAttribute_written`), and
  the attributes of a tag come in their order as long as no key repeats
  (`attributesOf_content`).
-/
import NetconfClient.Proofs.Markup.CharacterData
import NetconfClient.Proofs.Markup.Parts

namespace NetconfClient.Markup

open Text Association

variable {place : List Char → Nat} {earlier : List (List Char × Nat)}

/-! ## 1. One attribute -/

theorem endsKey_of_mem_name {name : Name} {c : Char} (h : c ∈ name.chars) : endsKey c = false := by
  have hequals : c ≠ '=' := by
    rintro rfl
    exact name.notMem (by decide) h
  simp [endsKey, hequals, name.not_blank h]

/-- A key ends where its name does. -/
theorem splitKey_name (name : Name) {rest : List Char} (hrest : ∀ c ∈ rest.head?, endsKey c = true) :
    splitKey (name.chars ++ rest) = (name.chars, rest) := by
  obtain ⟨c, cs, hcs, -⟩ := name.exists_cons
  have hname : ∀ d ∈ cs, (!endsKey d) = true := by
    intro d hd
    rw [endsKey_of_mem_name (hcs ▸ List.mem_cons_of_mem c hd)]
    rfl
  have hfront : rest.takeWhile (!endsKey ·) = [] ∧ rest.dropWhile (!endsKey ·) = rest := by
    cases rest with
    | nil => exact ⟨rfl, rfl⟩
    | cons d rest => simp [hrest d rfl]
  rw [hcs, List.cons_append, splitKey, List.takeWhile_append_of_pos hname,
    List.dropWhile_append_of_pos hname, hfront.1, hfront.2, List.append_nil]

theorem dropWhile_gap (gap : Gap) {c : Char} (hc : isMarkupBlank c = false) (rest : List Char) :
    (gap.chars ++ c :: rest).dropWhile isMarkupBlank = c :: rest := by
  rw [List.dropWhile_append_of_pos fun _ => gap.isMarkupBlank_of_mem,
    List.dropWhile_cons_of_neg (by simp [hc])]

namespace QuotedAttribute

variable (a : QuotedAttribute)

/-- What is written behind the blanks in front of an attribute. -/
def bare : List Char :=
  a.key.chars ++ (a.before.chars ++ '=' :: (a.behind.chars ++ a.quote :: (a.value ++ [a.quote])))

/-- An attribute as it is read. -/
def read : Attribute := ⟨a.key.chars, a.value⟩

theorem written_eq : a.written = a.lead.chars ++ a.bare := rfl

theorem readValue_written (rest : List Char) :
    readValue place (a.behind.chars ++ a.quote :: (a.value ++ a.quote :: rest)) =
      .ok (a.value, rest) := by
  have hblank : isMarkupBlank a.quote = false := by
    rcases a.isQuote with h | h
    all_goals
      rw [h]
      decide
  rw [readValue, dropWhile_gap a.behind hblank]
  dsimp only
  rw [if_pos a.isQuote, cut_append_cons rest a.unquoted]

/-- **An attribute is read off what follows it.** -/
theorem readAttribute_written (hnew : earlier.lookup a.key.chars = none) (rest : List Char) :
    readAttribute place earlier (a.bare ++ rest) = .ok (a.read, rest) := by
  have hbare : a.bare ++ rest = a.key.chars ++ (a.before.chars ++
      '=' :: (a.behind.chars ++ a.quote :: (a.value ++ a.quote :: rest))) := by
    simp [bare]
  have hend : ∀ c ∈ (a.before.chars ++
      '=' :: (a.behind.chars ++ a.quote :: (a.value ++ a.quote :: rest))).head?,
      endsKey c = true := by
    intro c hc
    rcases hbefore : a.before.chars with _ | ⟨d, ds⟩
    · rw [hbefore] at hc
      cases hc
      rfl
    · have hblank := a.before.isMarkupBlank_of_mem (hbefore ▸ List.mem_cons_self)
      rw [hbefore] at hc
      cases hc
      simp [endsKey, hblank]
  rw [hbare, readAttribute, splitKey_name a.key hend]
  dsimp only
  rw [dropWhile_gap a.before (by decide)]
  dsimp only
  rw [if_neg (by simp), hnew]
  dsimp only
  rw [a.readValue_written rest]
  rfl

theorem exists_bare_cons : ∃ c cs, a.bare = c :: cs ∧ isMarkupBlank c = false := by
  obtain ⟨c, cs, hcs, -⟩ := a.key.exists_cons
  have hc := a.key.not_blank (hcs ▸ List.mem_cons_self)
  rw [bare, hcs]
  exact ⟨c, _, rfl, hc⟩

end QuotedAttribute

/-! ## 2. All attributes -/

/-- What a reader finds if it finds nothing but these attributes. -/
def Attributes.ofList (attributes : List Attribute) : Attributes :=
  attributes.foldr .more .none

theorem readAttributes_blank {gap : List Char} (h : ∀ c ∈ gap, isMarkupBlank c = true) :
    readAttributes place earlier gap = .none := by
  unfold readAttributes
  split
  · rfl
  · next c cs heq =>
    rw [List.dropWhile_eq_nil_iff.mpr h] at heq
    cases heq

theorem readAttributes_written (a : QuotedAttribute) (hnew : earlier.lookup a.key.chars = none)
    (rest : List Char) :
    readAttributes place earlier (a.written ++ rest) =
      .more a.read
        (readAttributes place ((a.key.chars, place (a.bare ++ rest)) :: earlier) rest) := by
  obtain ⟨c, cs, hcs, hc⟩ := a.exists_bare_cons
  have hskip : (a.written ++ rest).dropWhile isMarkupBlank = c :: (cs ++ rest) := by
    rw [a.written_eq, List.append_assoc, hcs, List.cons_append]
    exact dropWhile_gap a.lead hc _
  have hread : readAttribute place earlier (a.bare ++ rest) = .ok (a.read, rest) :=
    a.readAttribute_written hnew rest
  rw [hcs, List.cons_append] at hread ⊢
  rw [readAttributes]
  split
  · next heq =>
    rw [hskip] at heq
    cases heq
  · next d ds heq =>
    rw [hskip] at heq
    cases heq
    split
    · next herror =>
      rw [hread] at herror
      cases herror
    · next attr back hok =>
      rw [hread] at hok
      cases hok
      rfl

theorem readAttributes_flatMap {attributes : List QuotedAttribute}
    (hnew : ∀ a ∈ attributes, earlier.lookup a.key.chars = none)
    (hdistinct : (attributes.map (·.key.chars)).Nodup) (gap : Gap) :
    readAttributes place earlier (attributes.flatMap QuotedAttribute.written ++ gap.chars) =
      .ofList (attributes.map QuotedAttribute.read) := by
  induction attributes generalizing earlier with
  | nil => exact readAttributes_blank fun _ => gap.isMarkupBlank_of_mem
  | cons a attributes ih =>
    rw [List.map_cons, List.nodup_cons] at hdistinct
    rw [List.flatMap_cons, List.append_assoc, readAttributes_written a (hnew a List.mem_cons_self),
      ih ?_ hdistinct.2]
    · rfl
    · intro b hb
      have hne : (b.key.chars == a.key.chars) = false := by
        rw [beq_eq_false_iff_ne]
        intro heq
        exact hdistinct.1 (heq ▸ List.mem_map_of_mem hb)
      rw [List.lookup_cons, hne]
      exact hnew b (List.mem_cons_of_mem a hb)

namespace Tag

variable (t : Tag)

theorem behindName_content : Markup.behindName t.content = t.behindName := by
  have hsplit := List.takeWhile_append_dropWhile (p := (!isMarkupBlank ·)) (l := t.content)
  have hname : t.content.takeWhile (!isMarkupBlank ·) = t.name.chars := t.tagName_content
  rw [hname, content] at hsplit
  exact List.append_cancel_left hsplit

/-- **The attributes of a tag are read in their order, each with its value as it is written.** -/
theorem attributesOf_content (h : (t.attributes.map (·.key.chars)).Nodup) :
    attributesOf t.content = .ofList (t.attributes.map QuotedAttribute.read) := by
  rw [attributesOf, behindName_content, behindName]
  exact readAttributes_flatMap (fun _ _ => rfl) h t.gap

end Tag

end NetconfClient.Markup
