/-
  NetconfClient/Proofs/Message/RootTag.lean
  =========================================
  **A message is routed by its first start tag alone.**

  Blanks, comments and processing instructions in front of the tag are passed
  over, and the search for the end of the tag stops at its own `>`
  (`read_prolog_tag`).  So the same tag announces the same message whatever
  stands around it (`routed_by_root_tag`): the text behind it need not even be
  markup.
-/
import NetconfClient.Message.Inbound
import NetconfClient.Proofs.Markup.AttributeList
import NetconfClient.Proofs.Markup.Tree

namespace NetconfClient.RootTag

open Text Markup

variable {opened : List (List Char)} {content : List Char}

/-! ## 1. Tags and prologs as they are written -/

/-- What stands between angle brackets: a `>` stands only between equal quotes, and no quote
    is left open. -/
inductive TagText : List Char → Prop
  | nil : TagText []
  | plain {c : Char} {rest : List Char} (h : c ∉ ['>', '"', '\'']) (next : TagText rest) :
      TagText (c :: rest)
  | quoted {quote : Char} {value rest : List Char} (hquote : quote = '"' ∨ quote = '\'')
      (hvalue : quote ∉ value) (next : TagText rest) : TagText (quote :: (value ++ quote :: rest))

/-- A start tag, or the tag of an element without content, between its angle brackets. -/
def IsTag (content : List Char) : Prop :=
  content.head? ∉ [some '!', some '/', some '?'] ∧ TagText content

/-- Blanks, comments and processing instructions. -/
structure Prolog where
  asides : List (Gap × Aside)
  lead : Gap

def Prolog.written (p : Prolog) : List Char :=
  (p.asides.flatMap fun part => part.1.chars ++ '<' :: part.2.markup) ++ p.lead.chars

/-- The content of a tag without the slash of an element without content. -/
def unslashed (content : List Char) : List Char :=
  if content.getLast? = some '/' then content.dropLast else content

/-! ## 2. Reading up to the first tag -/

theorem TagText.passes (h : TagText content) : Passes content := by
  induction h with
  | nil => exact passes_nil
  | @plain c rest hc _ ih =>
    have hfirst : Passes [c] := by
      apply passes_of_forall
      intro d hd hmem
      rw [List.mem_singleton] at hmem
      exact hc (hmem ▸ hd)
    exact hfirst.append ih
  | @quoted quote value rest hquote hvalue _ ih =>
    have hpasses := (passes_quoted hquote hvalue).append ih
    rwa [List.cons_append, List.append_assoc, List.singleton_append] at hpasses

/-- A quote that is open is closed in front of the end of a tag. -/
theorem exists_of_tagEnd_some {quote : Char} {cs : List Char}
    (h : tagEnd (some quote) (cs ++ ['>']) = some (cs, [])) :
    ∃ value rest, cs = value ++ quote :: rest ∧ quote ∉ value ∧
      tagEnd none (rest ++ ['>']) = some (rest, []) := by
  induction cs with
  | nil => simp [tagEnd] at h
  | cons c cs ih =>
    simp only [List.cons_append, tagEnd] at h
    obtain ⟨⟨front, back⟩, hend, heq⟩ := Option.map_eq_some_iff.mp h
    obtain ⟨rfl, rfl⟩ : front = cs ∧ back = [] := by simpa using heq
    by_cases hc : c = quote
    · subst hc
      rw [if_pos rfl] at hend
      exact ⟨[], front, rfl, by simp, hend⟩
    · rw [if_neg hc] at hend
      obtain ⟨value, rest, rfl, hvalue, hrest⟩ := ih hend
      refine ⟨c :: value, rest, rfl, ?_, hrest⟩
      rw [List.mem_cons, not_or]
      exact ⟨Ne.symm hc, hvalue⟩

theorem tagText_of_tagEnd (h : tagEnd none (content ++ ['>']) = some (content, [])) :
    TagText content := by
  -- a quoted value is passed over at once, so the induction is on the length
  induction hlength : content.length using Nat.strong_induction_on generalizing content with
  | _ n ih =>
    subst hlength
    cases content with
    | nil => exact .nil
    | cons c cs =>
      simp only [List.cons_append, tagEnd] at h
      split at h
      · cases h
      · next hclose =>
        obtain ⟨⟨front, back⟩, hend, heq⟩ := Option.map_eq_some_iff.mp h
        obtain ⟨rfl, rfl⟩ : front = cs ∧ back = [] := by simpa using heq
        split at hend
        · next hquote =>
          obtain ⟨value, rest, rfl, hvalue, hrest⟩ := exists_of_tagEnd_some hend
          exact .quoted hquote hvalue (ih rest.length (by simp; omega) hrest rfl)
        · next hquote =>
          refine .plain ?_ (ih front.length (Nat.lt_succ_self _) hend rfl)
          simp only [List.mem_cons, List.not_mem_nil, or_false, not_or]
          exact ⟨hclose, fun h => hquote (.inl h), fun h => hquote (.inr h)⟩

/-- What may stand in a tag is what the search for its end goes over. -/
theorem tagText_iff : TagText content ↔ tagEnd none (content ++ ['>']) = some (content, []) := by
  constructor
  · intro h
    rw [h.passes]
    simp [tagEnd]
  · exact tagText_of_tagEnd

instance (content : List Char) : Decidable (TagText content) := decidable_of_iff' _ tagText_iff

instance (content : List Char) : Decidable (IsTag content) := inferInstanceAs (Decidable (_ ∧ _))

theorem readMarkup_isTag (h : IsTag content) (opened : List (List Char)) (behind : List Char) :
    ∃ event next, readMarkup opened (content ++ '>' :: behind) = .ok (event, next) ∧
      (event = .opening (unslashed content) ∨ event = .empty (unslashed content)) := by
  have hopen : readMarkup opened (content ++ '>' :: behind) =
      readOpen opened (content ++ '>' :: behind) := by
    obtain ⟨hfirst, -⟩ := h
    cases content with
    | nil => rfl
    | cons c cs =>
      simp only [List.head?_cons, List.mem_cons, List.not_mem_nil, or_false, not_or,
        Option.some.injEq] at hfirst
      unfold readMarkup
      split
      · next heq => exact absurd (List.cons.inj heq).1 hfirst.1
      · next heq => exact absurd (List.cons.inj heq).1 hfirst.2.1
      · next heq => exact absurd (List.cons.inj heq).1 hfirst.2.2
      · rfl
  have hend : tagEnd none (content ++ '>' :: behind) = some (content, behind) := by
    rw [h.2.passes]
    simp [tagEnd]
  rw [hopen, readOpen, hend, unslashed]
  dsimp only
  split
  · exact ⟨_, _, rfl, .inr rfl⟩
  · exact ⟨_, _, rfl, .inl rfl⟩

theorem ofEvents_tag (h : IsTag content) (behind : List Char) :
    ofEvents (Reader.events .kept ⟨opened, '<' :: (content ++ '>' :: behind)⟩) =
      ofContent (unslashed content) := by
  obtain ⟨event, next, hread, hevent⟩ := readMarkup_isTag h opened behind
  rw [events_markup (by simp) hread]
  rcases hevent with rfl | rfl
  · rfl
  · rfl

/-- Blanks in front of a construct are character data that says nothing. -/
theorem ofEvents_gap (gap : Gap) (rest : List Char) :
    ofEvents (Reader.events .kept ⟨opened, gap.chars ++ '<' :: rest⟩) =
      ofEvents (Reader.events .kept ⟨opened, '<' :: rest⟩) := by
  by_cases hgap : gap.chars = []
  · rw [hgap, List.nil_append]
  · have hprolog : gap.chars.all isPrologBlank = true := by
      rw [List.all_eq_true]
      intro c hc
      rw [isPrologBlank, gap.isMarkupBlank_of_mem hc, Bool.true_or]
    have htext : Reader.events .kept ⟨opened, gap.chars ++ '<' :: rest⟩ =
        .event (.text gap.chars) (Reader.events .kept ⟨opened, '<' :: rest⟩) :=
      events_charData_append (gap.notMem rfl) hgap (by rintro c ⟨⟩; rfl)
    rw [htext, ofEvents, if_pos hprolog]

theorem ofEvents_prolog (p : Prolog) (rest : List Char) :
    ofEvents (Reader.events .kept ⟨opened, p.written ++ '<' :: rest⟩) =
      ofEvents (Reader.events .kept ⟨opened, '<' :: rest⟩) := by
  obtain ⟨asides, lead⟩ := p
  induction asides with
  | nil => exact ofEvents_gap lead rest
  | cons part asides ih =>
    simp only [Prolog.written, List.flatMap_cons, List.append_assoc, List.cons_append] at ih ⊢
    rw [ofEvents_gap, events_aside, ofEvents, ih]

/-- A prolog and what follows it do not begin with a byte order mark. -/
theorem events_prolog_tag (p : Prolog) (rest : List Char) :
    events .kept (p.written ++ '<' :: rest) =
      Reader.events .kept ⟨[], p.written ++ '<' :: rest⟩ := by
  have hfront : ∃ (gap : Gap) (back : List Char), p.written ++ '<' :: rest = gap.chars ++ '<' :: back := by
    obtain ⟨asides, lead⟩ := p
    cases asides with
    | nil => exact ⟨lead, rest, rfl⟩
    | cons part asides =>
      refine ⟨part.1, part.2.markup ++ (Prolog.written ⟨asides, lead⟩ ++ '<' :: rest), ?_⟩
      simp [Prolog.written]
  obtain ⟨gap, back, hback⟩ := hfront
  rw [hback]
  rcases hgap : gap.chars with _ | ⟨c, cs⟩
  · rfl
  · have hc : c ≠ byteOrderMark := by
      rintro rfl
      exact absurd (gap.isMarkupBlank_of_mem (hgap ▸ List.mem_cons_self)) (by decide)
    rw [List.cons_append, Markup.events, if_neg hc]

/-- **The first start tag of a message is read, whatever stands around it.** -/
theorem read_prolog_tag (p : Prolog) (h : IsTag content) (behind : List Char) :
    read (String.ofList (p.written ++ '<' :: (content ++ '>' :: behind))) =
      ofContent (unslashed content) := by
  rw [read, String.toList_ofList, events_prolog_tag, ofEvents_prolog, ofEvents_tag h]

/-- A tag that stands alone. -/
theorem read_tag (h : IsTag content) (behind : List Char) :
    read (String.ofList ('<' :: (content ++ '>' :: behind))) = ofContent (unslashed content) :=
  read_prolog_tag ⟨[], .none⟩ h behind

/-! ## 3. What a tag says -/

/-- Whether an attribute can be read.  The value of a declaration of a namespace is not looked
    at. -/
def Legible (a : Attribute) : Prop := declaresNamespace a.key ∨ Readable a.value

instance (a : Attribute) : Decidable (Legible a) := inferInstanceAs (Decidable (_ ∨ _))

/-- What an attribute adds to a dictionary; the declaration of a namespace adds nothing. -/
def stored? (a : Attribute) : Option (String × String) :=
  if declaresNamespace a.key then none
  else
    match unescape a.value with
    | .ok text => some (String.ofList (Markup.localName a.key), String.ofList text)
    | .error _ => none

theorem collect_of_legible {attributes : List Attribute} (h : ∀ a ∈ attributes, Legible a)
    (dict : Dictionary) :
    collect (.ofList attributes) dict =
      .ok ((attributes.filterMap stored?).foldl (fun dict entry => dict.insert entry.1 entry.2)
        dict) := by
  induction attributes generalizing dict with
  | nil => rfl
  | cons a attributes ih =>
    have hrest := ih fun b hb => h b (List.mem_cons_of_mem a hb)
    have hcons : Attributes.ofList (a :: attributes) = .more a (.ofList attributes) := rfl
    rw [hcons, collect, List.filterMap_cons, stored?]
    by_cases hnamespace : declaresNamespace a.key
    · rw [if_pos hnamespace, if_pos hnamespace]
      exact hrest dict
    · obtain ⟨text, htext⟩ := (h a List.mem_cons_self).resolve_left hnamespace
      rw [if_neg hnamespace, if_neg hnamespace, unescape_eq_ok_iff.mpr htext]
      exact hrest _

/-- One attribute that cannot be read is enough for the tag to be refused. -/
theorem collect_of_not_legible {attributes : List Attribute}
    (h : ¬ ∀ a ∈ attributes, Legible a) (dict : Dictionary) :
    ∃ fault, collect (.ofList attributes) dict = .error fault := by
  induction attributes generalizing dict with
  | nil => exact absurd (List.forall_mem_nil _) h
  | cons a attributes ih =>
    have hcons : Attributes.ofList (a :: attributes) = .more a (.ofList attributes) := rfl
    rw [hcons, collect]
    rw [List.forall_mem_cons, Legible] at h
    by_cases hnamespace : declaresNamespace a.key
    · rw [if_pos hnamespace]
      exact ih (fun hall => h ⟨.inl hnamespace, hall⟩) dict
    · rw [if_neg hnamespace]
      by_cases hread : Readable a.value
      · obtain ⟨text, htext⟩ := hread
        rw [unescape_eq_ok_iff.mpr htext]
        exact ih (fun hall => h ⟨.inr ⟨text, htext⟩, hall⟩) _
      · obtain ⟨e, he⟩ := unescape_of_not_readable hread
        rw [he]
        exact ⟨_, rfl⟩

/-- What a tag ends with: that of an element with content, or of one without. -/
def tagEnds : List (List Char) := [['>'], ['/', '>']]

/-- **A tag says its local name, and of the attributes with one local name the last.** -/
theorem ofContent_of_legible {t : Tag} (h : (t.attributes.map (·.key.chars)).Nodup)
    (hlegible : ∀ a ∈ t.attributes.map QuotedAttribute.read, Legible a) :
    ofContent t.content =
      .ok ⟨String.ofList t.localName,
        .ofPairs ((t.attributes.map QuotedAttribute.read).filterMap stored?)⟩ := by
  rw [ofContent, t.attributesOf_content h, t.tagName_content, collect_of_legible hlegible]
  rfl

theorem ofContent_of_not_legible {t : Tag} (h : (t.attributes.map (·.key.chars)).Nodup)
    (hillegible : ¬ ∀ a ∈ t.attributes.map QuotedAttribute.read, Legible a) :
    ∃ fault, ofContent t.content = .error fault := by
  obtain ⟨fault, hfault⟩ := collect_of_not_legible hillegible .empty
  rw [ofContent, t.attributesOf_content h, hfault]
  exact ⟨fault, rfl⟩

theorem isTag_content (t : Tag) {back : List Char} (h : Passes back) : IsTag (t.content ++ back) := by
  obtain ⟨hfirst, hend⟩ := t.isTagContent h
  refine ⟨?_, tagText_iff.mpr hend⟩
  intro hmem
  exact hfirst (List.mem_cons_of_mem _ hmem)

/-- **A written tag is read, whatever stands around it.** -/
theorem read_written (p : Prolog) (t : Tag) {close : List Char} (hclose : close ∈ tagEnds)
    (behind : List Char) :
    read (String.ofList (p.written ++ '<' :: (t.content ++ (close ++ behind)))) =
      ofContent t.content := by
  have hslash : Passes ['/'] := passes_of_forall (by simp)
  simp only [tagEnds, List.mem_cons, List.not_mem_nil, or_false] at hclose
  rcases hclose with rfl | rfl
  · have htag := isTag_content t passes_nil
    rw [List.append_nil] at htag
    exact (read_prolog_tag p htag behind).trans (congrArg ofContent (if_neg t.unslashed))
  · have hread := read_prolog_tag p (isTag_content t hslash) behind
    rw [unslashed, if_pos List.getLast?_concat, List.dropLast_concat, List.append_assoc] at hread
    exact hread

/-- An attribute whose value is character data, and the text that the value stands for. -/
structure ReadableAttribute extends QuotedAttribute where
  text : List Char
  reads : StandsFor value text

namespace ReadableAttribute

/-- What an attribute adds to a dictionary; the declaration of a namespace adds nothing. -/
def pair? (a : ReadableAttribute) : Option (String × String) :=
  if declaresNamespace a.key.chars then none
  else some (String.ofList (Markup.localName a.key.chars), String.ofList a.text)

theorem stored?_read (a : ReadableAttribute) : stored? a.read = a.pair? := by
  have hread : unescape a.value = .ok a.text := unescape_eq_ok_iff.mpr a.reads
  rw [stored?, QuotedAttribute.read, hread, pair?]

end ReadableAttribute

/-- A tag with those attributes. -/
def tagOf (name : Name) (attributes : List ReadableAttribute) (gap : Gap) : Tag :=
  ⟨name, attributes.map fun a => a.toQuotedAttribute, gap⟩

/-- **A written tag is read back from a message that begins with it.** -/
theorem read_tagOf (name : Name) {attributes : List ReadableAttribute}
    (h : (attributes.map (·.key.chars)).Nodup) (gap : Gap) {close : List Char}
    (hclose : close ∈ tagEnds) (behind : List Char) :
    read (String.ofList ('<' :: ((tagOf name attributes gap).content ++ (close ++ behind)))) =
      .ok ⟨String.ofList (Markup.localName name.chars),
        .ofPairs (attributes.filterMap (·.pair?))⟩ := by
  have hkeys : ((tagOf name attributes gap).attributes.map (·.key.chars)).Nodup := by
    rw [tagOf, List.map_map]
    exact h
  have hlegible : ∀ a ∈ (tagOf name attributes gap).attributes.map QuotedAttribute.read,
      Legible a := by
    intro a ha
    rw [tagOf, List.map_map] at ha
    obtain ⟨b, -, rfl⟩ := List.mem_map.mp ha
    exact .inr ⟨b.text, b.reads⟩
  have hentries : ((tagOf name attributes gap).attributes.map QuotedAttribute.read).filterMap
      stored? = attributes.filterMap (·.pair?) := by
    rw [tagOf, List.map_map, List.filterMap_map]
    exact List.filterMap_congr fun a _ => a.stored?_read
  have hread := read_written ⟨[], .none⟩ (tagOf name attributes gap) hclose behind
  rw [ofContent_of_legible hkeys hlegible, hentries] at hread
  exact hread

/-! ## 4. Routing -/

/-- **Neither what stands in front of the root tag of a message nor what stands behind it
    changes what the message is.** -/
theorem routed_by_root_tag (p : Prolog) (h : IsTag content) (behind : List Char) :
    read (String.ofList (p.written ++ '<' :: (content ++ '>' :: behind))) =
        read (String.ofList ('<' :: (content ++ ['>']))) ∧
      Inbound.classify (String.ofList (p.written ++ '<' :: (content ++ '>' :: behind))) =
        Inbound.classify (String.ofList ('<' :: (content ++ ['>']))) := by
  have hread : read (String.ofList (p.written ++ '<' :: (content ++ '>' :: behind))) =
      read (String.ofList ('<' :: (content ++ ['>']))) := by
    rw [read_prolog_tag p h behind, read_tag h []]
  refine ⟨hread, ?_⟩
  rw [Inbound.classify, hread, Inbound.classify]

/-- A declaration and a comment with a tag in it. -/
def sampleProlog : Prolog where
  asides := [(⟨['\n'], rfl⟩, .instruction "xml version=\"1.0\"".toList (by decide) (by decide)),
    (.none, .comment " <rpc-reply> ".toList (by decide +kernel))]
  lead := ⟨['\t'], rfl⟩

theorem routed_by_root_tag_quoted :
    IsTag "rpc-reply note='\"/>' message-id=\"7\"".toList ∧
      Inbound.classify (String.ofList (sampleProlog.written ++
          '<' :: ("rpc-reply note='\"/>' message-id=\"7\"".toList ++
            '>' :: "<data><unclosed></rpc-reply message-id=\"8\">".toList))) =
        Inbound.classify (String.ofList
          ('<' :: ("rpc-reply note='\"/>' message-id=\"7\"".toList ++ ['>']))) := by
  have h : IsTag "rpc-reply note='\"/>' message-id=\"7\"".toList := by decide
  exact ⟨h, (routed_by_root_tag sampleProlog h
    "<data><unclosed></rpc-reply message-id=\"8\">".toList).2⟩

end NetconfClient.RootTag
