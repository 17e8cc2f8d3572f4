/-
  NetconfClient/Proofs/Markup/Parts.lean
  ======================================
  **The parts that documents are written from.**

  Character data, tags, comments and processing instructions carry their own
  well-formedness: what can be built can be written, and what is written is read
  back.  Character data stands for a text (`unescape_written`), a tag is the
  content of a tag whatever is quoted in it (`isTagContent`), and an aside is
  passed over (`events_aside`).
-/
import NetconfClient.Proofs.Markup.Entity
import NetconfClient.Proofs.Markup.Reading
import NetconfClient.Proofs.Text.Ascii

namespace NetconfClient.Markup

open Text

variable {blanks : Blanks} {opened : List (List Char)} {rest : List Char}

/-! ## 1. Character data -/

/-- A character of character data: as it is, or as an entity. -/
inductive Glyph where
  | plain (c : Char) (h : c ≠ '<' ∧ c ≠ '&')
  | entity (c : Char) (h : c ∈ reserved)

def Glyph.written : Glyph → List Char
  | .plain c _ => [c]
  | .entity c _ => escapeChar c

def Glyph.value : Glyph → Char
  | .plain c _ => c
  | .entity c _ => c

/-- A character in the form in which it may stand anywhere. -/
def Glyph.of (c : Char) : Glyph :=
  if h : c ∈ reserved then .entity c h
  else .plain c (by
    constructor
    all_goals rintro rfl; exact h (by decide))

/-- Character data between two constructs of markup. -/
structure CharData where
  glyphs : List Glyph

namespace CharData

def written (data : CharData) : List Char := data.glyphs.flatMap Glyph.written

/-- The text that character data stands for. -/
def value (data : CharData) : List Char := data.glyphs.map Glyph.value

def of (text : List Char) : CharData := ⟨text.map Glyph.of⟩

/-- Whether nothing but blanks is written. -/
def isBlank (data : CharData) : Bool := data.written.all isMarkupBlank

/-- Character data without the blanks around it. -/
def trimmed (data : CharData) : CharData := ⟨trimWhile (fun g => isMarkupBlank g.value) data.glyphs⟩

end CharData

theorem notMem_written (g : Glyph) : '<' ∉ g.written := by
  cases g with
  | plain c h =>
    intro hmem
    exact h.1 (List.mem_singleton.mp hmem).symm
  | entity c h => exact notMem_escapeChar (by decide) (by decide) c

theorem written_of_blank (g : Glyph) (h : isMarkupBlank g.value) : g.written = [g.value] := by
  cases g with
  | plain c hc => rfl
  | entity c hc => exact absurd hc (notMem_reserved_of_blank h)

/-- Anything else begins and ends with characters that are no blanks. -/
theorem written_of_not_blank (g : Glyph) (h : isMarkupBlank g.value = false) :
    (∃ d ds, g.written = d :: ds ∧ isMarkupBlank d = false) ∧
      ∃ d ds, g.written.reverse = d :: ds ∧ isMarkupBlank d = false := by
  cases g with
  | plain c hc => exact ⟨⟨c, [], rfl, h⟩, ⟨c, [], rfl, h⟩⟩
  | entity c hc => exact escapeChar_of_not_blank h

theorem unescapeFrom_written (total pos : Nat) (g : Glyph) :
    ∃ next, ∀ rest, unescapeFrom total .text pos (g.written ++ rest) =
      (unescapeFrom total .text next rest).map (g.value :: ·) := by
  cases g with
  | plain c h =>
    refine ⟨pos + Utf8.charSize c, ?_⟩
    intro rest
    rw [Glyph.written, List.singleton_append, unescapeFrom, if_neg h.2]
    rfl
  | entity c h => exact unescapeFrom_escapeChar total pos c

namespace CharData

variable (data : CharData)

theorem notMem_written : '<' ∉ data.written := by
  intro h
  obtain ⟨g, -, hg⟩ := List.mem_flatMap.mp h
  exact Markup.notMem_written g hg

/-- **Character data is read as the text it stands for.** -/
theorem unescape_written : unescape data.written = .ok data.value := by
  obtain ⟨glyphs⟩ := data
  have hfrom : ∀ total pos, unescapeFrom total .text pos (glyphs.flatMap Glyph.written) =
      .ok (glyphs.map Glyph.value) := by
    intro total pos
    induction glyphs generalizing pos with
    | nil => rfl
    | cons g glyphs ih =>
      obtain ⟨next, hnext⟩ := unescapeFrom_written total pos g
      rw [List.flatMap_cons, hnext, ih]
      rfl
  exact hfrom _ 0

theorem written_trimmed : data.trimmed.written = trimWhile isMarkupBlank data.written := by
  refine (trimWhile_flatMap ?_ ?_ ?_ data.glyphs).symm
  · intro g hg
    simpa [written_of_blank g hg] using hg
  · intro g hg
    exact (written_of_not_blank g hg).1
  · intro g hg
    exact (written_of_not_blank g hg).2

theorem value_trimmed : data.trimmed.value = trimWhile isMarkupBlank data.value :=
  (trimWhile_map Glyph.value data.glyphs).symm

theorem isBlank_iff : data.isBlank ↔ data.trimmed.written = [] := by
  rw [written_trimmed, trimWhile_eq_nil_iff, isBlank, List.all_eq_true]

end CharData

/-! ## 2. Tags -/

/-- Blanks between the parts of markup. -/
structure Gap where
  chars : List Char
  blank : chars.all isMarkupBlank = true

def Gap.none : Gap := ⟨[], rfl⟩

/-- Whether a character may stand in a name. -/
def isNameChar (c : Char) : Bool :=
  !isMarkupBlank c && !(['<', '>', '/', '"', '\'', '=', '!', '?', '&'].contains c)

/-- The name of an element or an attribute, with its prefix if it has one. -/
structure Name where
  chars : List Char
  ne_nil : chars ≠ []
  valid : chars.all isNameChar = true

theorem Gap.isMarkupBlank_of_mem (gap : Gap) {c : Char} (h : c ∈ gap.chars) : isMarkupBlank c = true :=
  List.all_eq_true.mp gap.blank c h

theorem Name.isNameChar_of_mem (name : Name) {c : Char} (h : c ∈ name.chars) :
    isNameChar c = true :=
  List.all_eq_true.mp name.valid c h

theorem Gap.notMem (gap : Gap) {c : Char} (h : isMarkupBlank c = false) : c ∉ gap.chars := by
  intro hmem
  rw [gap.isMarkupBlank_of_mem hmem] at h
  cases h

theorem Name.notMem (name : Name) {c : Char} (h : isNameChar c = false) : c ∉ name.chars := by
  intro hmem
  rw [name.isNameChar_of_mem hmem] at h
  cases h

theorem Name.not_blank (name : Name) {c : Char} (h : c ∈ name.chars) : isMarkupBlank c = false := by
  have hvalid := name.isNameChar_of_mem h
  simp only [isNameChar, Bool.and_eq_true, Bool.not_eq_true'] at hvalid
  exact hvalid.1

theorem Name.exists_cons (name : Name) : ∃ c cs, name.chars = c :: cs ∧ isNameChar c = true := by
  obtain ⟨c, cs, hcs⟩ := List.exists_cons_of_ne_nil name.ne_nil
  exact ⟨c, cs, hcs, name.isNameChar_of_mem (hcs ▸ List.mem_cons_self)⟩

/-- An attribute with its quoted value, and the blanks in front of it. -/
structure QuotedAttribute where
  lead : Gap
  lead_ne_nil : lead.chars ≠ []
  key : Name
  before : Gap
  behind : Gap
  quote : Char
  isQuote : quote = '"' ∨ quote = '\''
  value : List Char
  unquoted : quote ∉ value

def QuotedAttribute.written (a : QuotedAttribute) : List Char :=
  a.lead.chars ++ (a.key.chars ++ (a.before.chars ++
    '=' :: (a.behind.chars ++ a.quote :: (a.value ++ [a.quote]))))

/-- What stands in a start tag, or in front of the slash in the tag of an empty element. -/
structure Tag where
  name : Name
  attributes : List QuotedAttribute
  gap : Gap

def Tag.bare (name : Name) : Tag := ⟨name, [], .none⟩

def Tag.behindName (t : Tag) : List Char :=
  t.attributes.flatMap QuotedAttribute.written ++ t.gap.chars

def Tag.content (t : Tag) : List Char := t.name.chars ++ t.behindName

def Tag.localName (t : Tag) : List Char := Markup.localName t.name.chars

/-- Text over which the search for the end of a tag goes, as long as no quote is open. -/
def Passes (front : List Char) : Prop :=
  ∀ rest, tagEnd none (front ++ rest) = (tagEnd none rest).map fun r => (front ++ r.1, r.2)

theorem passes_nil : Passes [] := by
  intro rest
  simp

theorem Passes.append {front back : List Char} (hfront : Passes front) (hback : Passes back) :
    Passes (front ++ back) := by
  intro rest
  rw [List.append_assoc, hfront, hback, Option.map_map]
  simp [Function.comp_def]

theorem passes_of_forall {front : List Char} (h : ∀ c ∈ ['>', '"', '\''], c ∉ front) :
    Passes front := by
  induction front with
  | nil => exact passes_nil
  | cons c front ih =>
    intro rest
    simp only [List.mem_cons, List.not_mem_nil, or_false, forall_eq_or_imp, forall_eq, not_or] at h
    obtain ⟨⟨hclose, hfront⟩, ⟨hdouble, hfront'⟩, hsingle, hfront''⟩ := h
    have hrest := ih (by simp [hfront, hfront', hfront'']) rest
    simp only [List.cons_append, tagEnd, hrest, if_neg (Ne.symm hclose), Ne.symm hdouble,
      Ne.symm hsingle, or_self, if_false, Option.map_map]
    rfl

theorem tagEnd_some {quote : Char} {value : List Char} (h : quote ∉ value) (rest : List Char) :
    tagEnd (some quote) (value ++ quote :: rest) =
      (tagEnd none rest).map fun r => (value ++ quote :: r.1, r.2) := by
  induction value with
  | nil => simp [tagEnd]
  | cons c value ih =>
    simp only [List.mem_cons, not_or] at h
    simp only [List.cons_append, tagEnd, if_neg (Ne.symm h.1), ih h.2, Option.map_map]
    rfl

theorem passes_quoted {quote : Char} {value : List Char} (hquote : quote = '"' ∨ quote = '\'')
    (h : quote ∉ value) : Passes (quote :: (value ++ [quote])) := by
  intro rest
  have hclose : quote ≠ '>' := by rcases hquote with rfl | rfl <;> decide
  simp only [List.cons_append, List.append_assoc, List.nil_append, tagEnd, if_neg hclose,
    if_pos hquote, tagEnd_some h, Option.map_map]
  rfl

theorem Gap.passes (gap : Gap) : Passes gap.chars := by
  refine passes_of_forall ?_
  intro c hc
  simp only [List.mem_cons, List.not_mem_nil, or_false] at hc
  rcases hc with rfl | rfl | rfl
  all_goals exact gap.notMem (by decide)

theorem Name.passes (name : Name) : Passes name.chars := by
  refine passes_of_forall ?_
  intro c hc
  simp only [List.mem_cons, List.not_mem_nil, or_false] at hc
  rcases hc with rfl | rfl | rfl
  all_goals exact name.notMem (by decide)

theorem QuotedAttribute.passes (a : QuotedAttribute) : Passes a.written := by
  have hequals : Passes ['='] := passes_of_forall (by simp)
  exact a.lead.passes.append (a.key.passes.append (a.before.passes.append
    (hequals.append (a.behind.passes.append (passes_quoted a.isQuote a.unquoted)))))

/-- Text that does not end like the tag of an empty element. -/
def Unslashed (cs : List Char) : Prop := cs.getLast? ≠ some '/'

theorem Unslashed.append {front back : List Char} (hfront : Unslashed front)
    (hback : Unslashed back) : Unslashed (front ++ back) := by
  unfold Unslashed at *
  rw [List.getLast?_append]
  cases hlast : back.getLast? with
  | none => simpa using hfront
  | some c => simpa [hlast] using hback

theorem unslashed_of_notMem {cs : List Char} (h : '/' ∉ cs) : Unslashed cs :=
  fun hlast => h (List.mem_of_getLast? hlast)

theorem QuotedAttribute.unslashed (a : QuotedAttribute) : Unslashed a.written := by
  have hquote : a.quote ≠ '/' := by
    rcases a.isQuote with h | h
    all_goals rw [h]; decide
  have hshape : a.written = (a.lead.chars ++ (a.key.chars ++ (a.before.chars ++
      '=' :: (a.behind.chars ++ a.quote :: a.value)))) ++ [a.quote] := by
    simp [written]
  unfold Unslashed
  rw [hshape, List.getLast?_concat]
  simpa using hquote

namespace Tag

variable (t : Tag)

theorem passes : Passes t.content := by
  have hattributes : Passes (t.attributes.flatMap QuotedAttribute.written) := by
    induction t.attributes with
    | nil => exact passes_nil
    | cons a attributes ih =>
      rw [List.flatMap_cons]
      exact a.passes.append ih
  exact t.name.passes.append (hattributes.append t.gap.passes)

/-- No start tag looks like the tag of an empty element. -/
theorem unslashed : Unslashed t.content := by
  have hattributes : Unslashed (t.attributes.flatMap QuotedAttribute.written) := by
    induction t.attributes with
    | nil => simp [Unslashed]
    | cons a attributes ih =>
      rw [List.flatMap_cons]
      exact a.unslashed.append ih
  have hname : Unslashed t.name.chars := unslashed_of_notMem (t.name.notMem (by decide))
  exact hname.append (hattributes.append (unslashed_of_notMem (t.gap.notMem (by decide))))

/-- **What is written in a tag is the content of a tag.** -/
theorem isTagContent {back : List Char} (hback : Passes back) : IsTagContent (t.content ++ back) := by
  constructor
  · obtain ⟨c, cs, hcs, hc⟩ := t.name.exists_cons
    rw [content, hcs]
    simp only [List.cons_append, List.head?_cons, List.mem_cons, List.not_mem_nil, or_false,
      Option.some.injEq, reduceCtorEq, false_or]
    rintro (rfl | rfl | rfl)
    all_goals exact absurd hc (by decide)
  · rw [t.passes.append hback]
    simp [tagEnd]

theorem tagName_content : tagName t.content = t.name.chars := by
  have hname : ∀ c ∈ t.name.chars, (!isMarkupBlank c) = true := by
    intro c hc
    rw [t.name.not_blank hc]
    rfl
  have hgap : ∀ (gap : Gap) (back : List Char), gap.chars ≠ [] →
      (gap.chars ++ back).takeWhile (!isMarkupBlank ·) = [] := by
    intro gap back hne
    obtain ⟨c, cs, hcs⟩ := List.exists_cons_of_ne_nil hne
    have hblank := gap.isMarkupBlank_of_mem (hcs ▸ List.mem_cons_self)
    simp [hcs, hblank]
  have hbehind : t.behindName.takeWhile (!isMarkupBlank ·) = [] := by
    rw [behindName]
    cases t.attributes with
    | nil =>
      by_cases hnil : t.gap.chars = []
      · simp [hnil]
      · simpa using hgap t.gap [] hnil
    | cons a attributes =>
      rw [List.flatMap_cons, QuotedAttribute.written, List.append_assoc, List.append_assoc]
      exact hgap a.lead _ a.lead_ne_nil
  rw [tagName, content, List.takeWhile_append_of_pos hname, hbehind, List.append_nil]

/-- The name in an end tag, whatever blanks are behind it. -/
theorem closingName_append (gap : Gap) : closingName (t.name.chars ++ gap.chars) = t.name.chars := by
  obtain ⟨c, cs, hcs, -⟩ := t.name.exists_cons
  have hall : ¬ (t.name.chars ++ gap.chars).all isMarkupBlank := by
    have hblank := t.name.not_blank (hcs ▸ List.mem_cons_self)
    simp [hcs, hblank]
  rw [closingName, if_neg hall, dropEndWhile_append_of_all fun _ => gap.isMarkupBlank_of_mem,
    dropEndWhile_eq_self]
  intro c hc
  exact t.name.not_blank (List.mem_of_getLast? hc)

theorem notMem_closing (gap : Gap) : '>' ∉ t.name.chars ++ gap.chars := by
  intro hmem
  rcases List.mem_append.mp hmem with h | h
  · exact t.name.notMem (by decide) h
  · exact gap.notMem (by decide) h

end Tag

/-! ## 3. Comments and processing instructions -/

/-- A construct that says nothing: a comment without `--` in it, or a processing
    instruction, as the declaration of a document is one. -/
inductive Aside where
  | comment (body : List Char) (h : ¬ ['-', '-'] <:+: body)
  | instruction (body : List Char) (hne : body ≠ []) (h : '>' ∉ body)

/-- What is written behind the `<`. -/
def Aside.markup : Aside → List Char
  | .comment body _ => '!' :: '-' :: '-' :: (body ++ ['-', '-', '>'])
  | .instruction body _ _ => '?' :: (body ++ ['?', '>'])

/-- A `>` in a comment does not end it. -/
theorem not_endsComment {front : List Char} (h : ¬ ['-', '-'] <:+: front) :
    endsComment (front.reverse ++ ['-', '-', '!']) = false := by
  rw [Bool.eq_false_iff]
  intro hends
  simp only [endsComment, Bool.and_eq_true, decide_eq_true_eq, List.length_append,
    List.length_reverse, List.length_cons, List.length_nil, List.isPrefixOf_iff_prefix] at hends
  have hfront : ['-', '-'] <+: front.reverse :=
    List.prefix_of_prefix_length_le hends.2 (List.prefix_append _ _) (by simp; omega)
  have hback := List.reverse_suffix.mpr hfront
  rw [List.reverse_reverse] at hback
  exact h hback.isInfix

theorem closeAt_comment {front body : List Char} (h : ¬ ['-', '-'] <:+: front ++ body)
    (rest : List Char) :
    closeAt endsComment (front.reverse ++ ['-', '-', '!']) (body ++ '-' :: '-' :: '>' :: rest) =
      some ('!' :: '-' :: '-' :: (front ++ (body ++ ['-', '-'])), rest) := by
  -- `front` is the part of the comment that has been gone over
  induction body generalizing front with
  | nil =>
    have hends : endsComment ('-' :: '-' :: (front.reverse ++ ['-', '-', '!'])) = true := by
      simp [endsComment]
    simp [closeAt, hends]
  | cons c body ih =>
    have hstep := @ih (front ++ [c]) (by simpa using h)
    have hopen := not_endsComment fun hfront => h (hfront.trans (List.prefix_append _ _).isInfix)
    rw [List.cons_append, closeAt, if_neg (by simp [hopen])]
    simpa using hstep

theorem readMarkup_aside (a : Aside) (opened : List (List Char)) (rest : List Char) :
    readMarkup opened (a.markup ++ rest) = .ok (.ignored, ⟨opened, rest⟩) := by
  cases a with
  | comment body h =>
    have hclose := @closeAt_comment [] body h rest
    simp only [List.reverse_nil, List.nil_append] at hclose
    have hread : readBang ('!' :: '-' :: '-' :: (body ++ '-' :: '-' :: '>' :: rest)) =
        .ok (.ignored, rest) := by
      simp [readBang, closeAt, hclose, List.isPrefixOf]
    simp [Aside.markup, readMarkup, hread, Except.map]
  | instruction body hne h =>
    have hmem : '>' ∉ '?' :: (body ++ ['?']) := by simp [h]
    have hsize : Utf8.size ('?' :: (body ++ ['?'])) > 2 := by
      obtain ⟨c, cs, rfl⟩ := List.exists_cons_of_ne_nil hne
      have hpos : 0 < Utf8.charSize c := List.length_pos_iff.mpr (Utf8.encodeChar_ne_nil c)
      have hmark : Utf8.charSize '?' = 1 := by decide
      simp only [Utf8.size_cons, Utf8.size_append, hmark]
      omega
    have hlast : ('?' :: (body ++ ['?'])).getLast? = some '?' := by
      rw [← List.cons_append, List.getLast?_concat]
    have hread : readQuestion ('?' :: (body ++ '?' :: '>' :: rest)) = .ok (.ignored, rest) := by
      have hcut := cut_append_cons rest hmem
      simp only [List.cons_append, List.append_assoc, List.nil_append] at hcut
      simp [readQuestion, hcut, hsize, hlast]
    simp [Aside.markup, readMarkup, hread, Except.map]

theorem events_aside (a : Aside) (rest : List Char) :
    Reader.events blanks ⟨opened, '<' :: (a.markup ++ rest)⟩ =
      .event .ignored (Reader.events blanks ⟨opened, rest⟩) := by
  refine events_markup ?_ (readMarkup_aside a opened rest)
  cases a <;> simp [Aside.markup]

end NetconfClient.Markup
