/-
  NetconfClient/Proofs/Markup/Tree.lean
  =====================================
  **A document that is written from a tree is read as that tree.**

  `Content` is what stands between two tags: character data and markup in turn,
  so that there is one character data between any two constructs.  The reader
  gives the events of the tree in document order, whatever follows it
  (`events_content`), and the events of a whole document are those of its root
  element behind its prolog (`events_document`).
-/
import NetconfClient.Proofs.Markup.Parts

namespace NetconfClient.Markup

open Text

variable {blanks : Blanks} {opened : List (List Char)} {rest : List Char}

/-! ## 1. Content -/

/-- What stands between two tags: character data, and behind it markup and further content,
    if there is any.  An element without content has two forms, and an end tag may have
    blanks behind its name. -/
inductive Content where
  | last (data : CharData)
  | aside (data : CharData) (a : Aside) (rest : Content)
  | empty (data : CharData) (tag : Tag) (rest : Content)
  | element (data : CharData) (tag : Tag) (inner : Content) (gap : Gap) (rest : Content)

namespace Content

def written : Content → List Char
  | last data => data.written
  | aside data a rest => data.written ++ '<' :: (a.markup ++ rest.written)
  | empty data tag rest => data.written ++ '<' :: (tag.content ++ '/' :: '>' :: rest.written)
  | element data tag inner gap rest =>
    data.written ++ '<' :: (tag.content ++ '>' :: (inner.written ++
      '<' :: '/' :: (tag.name.chars ++ (gap.chars ++ '>' :: rest.written))))

end Content

/-- What character data adds in front of events: itself without the blanks around it, or
    nothing if nothing but blanks is written. -/
def CharData.events (data : CharData) (es : Events) : Events :=
  if data.isBlank then es else .event (.text data.trimmed.written) es

/-- The events of content in document order, in front of those that follow it. -/
def Content.events : Content → Events → Events
  | last data, es => data.events es
  | aside data _ rest, es => data.events (.event .ignored (rest.events es))
  | empty data tag rest, es => data.events (.event (.empty tag.content) (rest.events es))
  | element data tag inner _ rest, es =>
    data.events (.event (.opening tag.content) (inner.events (.event .closing (rest.events es))))

theorem events_charData (data : CharData) (rest : List Char) :
    Reader.events .trimmed ⟨opened, data.written ++ '<' :: rest⟩ =
      data.events (Reader.events .trimmed ⟨opened, '<' :: rest⟩) := by
  unfold CharData.events
  split
  · next hblank => exact events_blanks (List.all_eq_true.mp hblank) _
  · next hblank =>
    rw [data.isBlank_iff] at hblank
    rw [data.written_trimmed] at hblank ⊢
    exact events_text data.notMem_written hblank

theorem events_tag (tag : Tag) (rest : List Char) :
    Reader.events blanks ⟨opened, '<' :: (tag.content ++ '>' :: rest)⟩ =
      .event (.opening tag.content) (Reader.events blanks ⟨tag.name.chars :: opened, rest⟩) := by
  have htag := tag.isTagContent passes_nil
  rw [List.append_nil] at htag
  rw [events_opening htag tag.unslashed, tag.tagName_content]

theorem events_emptyTag (tag : Tag) (rest : List Char) :
    Reader.events blanks ⟨opened, '<' :: (tag.content ++ '/' :: '>' :: rest)⟩ =
      .event (.empty tag.content) (Reader.events blanks ⟨opened, rest⟩) := by
  have hslash : Passes ['/'] := passes_of_forall (by simp)
  have hempty := @events_empty blanks opened _ rest (tag.isTagContent hslash) List.getLast?_concat
  rwa [List.dropLast_concat, List.append_assoc, List.singleton_append] at hempty

theorem events_endTag (tag : Tag) (gap : Gap) (rest : List Char) :
    Reader.events blanks
        ⟨tag.name.chars :: opened, '<' :: '/' :: (tag.name.chars ++ (gap.chars ++ '>' :: rest))⟩ =
      .event .closing (Reader.events blanks ⟨opened, rest⟩) := by
  rw [← List.append_assoc]
  exact events_closing (tag.notMem_closing gap) (tag.closingName_append gap)

/-- **Content is read as the events of its tree**, up to the tag that follows it. -/
theorem events_content (content : Content) (rest : List Char) :
    Reader.events .trimmed ⟨opened, content.written ++ '<' :: rest⟩ =
      content.events (Reader.events .trimmed ⟨opened, '<' :: rest⟩) := by
  -- what is open and what follows are free, so an element can be read off its surroundings
  induction content generalizing opened rest with
  | last data => exact events_charData data rest
  | aside data a content ih =>
    simp only [Content.written, Content.events, List.append_assoc, List.cons_append]
    rw [events_charData, events_aside, ih]
  | empty data tag content ih =>
    simp only [Content.written, Content.events, List.append_assoc, List.cons_append]
    rw [events_charData, events_emptyTag, ih]
  | element data tag inner gap content ihinner ih =>
    simp only [Content.written, Content.events, List.append_assoc, List.cons_append]
    rw [events_charData, events_tag, ihinner, events_endTag, ih]

/-! ## 2. Elements -/

/-- What is inside the tag of an empty element. -/
def Content.nothing : Content := .last ⟨[]⟩

/-- The elements in content: the name of each without its prefix, and what is inside it. -/
def Content.children : Content → List (List Char × Content)
  | last _ => []
  | aside _ _ rest => rest.children
  | empty _ tag rest => (tag.localName, nothing) :: rest.children
  | element _ tag inner _ rest => (tag.localName, inner) :: rest.children

/-- What is inside the elements of that name. -/
def namedIn (name : List Char) (children : List (List Char × Content)) : List Content :=
  (children.filter fun child => child.1 = name).map (·.2)

def Content.named (content : Content) (name : List Char) : List Content :=
  namedIn name content.children

def Content.isLeaf : Content → Bool
  | last _ => true
  | aside .. | empty .. | element .. => false

/-- The text of a leaf, unless nothing but blanks is written. -/
def Content.text? : Content → Option (List Char)
  | last data => if data.isBlank then none else some data.value
  | aside .. | empty .. | element .. => none

def textsIn (name : List Char) (children : List (List Char × Content)) : List (List Char) :=
  (namedIn name children).filterMap Content.text?

def Content.texts (content : Content) (name : List Char) : List (List Char) :=
  textsIn name content.children

theorem namedIn_cons (name : List Char) (child : List Char × Content)
    (children : List (List Char × Content)) :
    namedIn name (child :: children) =
      if child.1 = name then child.2 :: namedIn name children else namedIn name children := by
  unfold namedIn
  rw [List.filter_cons]
  split
  · next hname => rw [if_pos (of_decide_eq_true hname), List.map_cons]
  · next hname => rw [if_neg (by simpa using hname)]

theorem namedIn_singleton (name : List Char) (child : List Char × Content) :
    namedIn name [child] = if child.1 = name then [child.2] else [] := namedIn_cons name child []

theorem namedIn_append (name : List Char) (front back : List (List Char × Content)) :
    namedIn name (front ++ back) = namedIn name front ++ namedIn name back := by
  simp [namedIn]

theorem textsIn_cons (name : List Char) (child : List Char × Content)
    (children : List (List Char × Content)) :
    textsIn name (child :: children) =
      (if child.1 = name then child.2.text?.toList else []) ++ textsIn name children := by
  unfold textsIn
  rw [namedIn_cons]
  split
  · rw [List.filterMap_cons]
    cases child.2.text? <;> rfl
  · rfl

theorem textsIn_singleton (name : List Char) (child : List Char × Content) :
    textsIn name [child] = if child.1 = name then child.2.text?.toList else [] := by
  rw [textsIn_cons]
  exact List.append_nil _

theorem textsIn_append (name : List Char) (front back : List (List Char × Content)) :
    textsIn name (front ++ back) = textsIn name front ++ textsIn name back := by
  rw [textsIn, namedIn_append, List.filterMap_append]
  rfl

namespace Content

variable {content other c : Content} {name : List Char} {child : List Char × Content}

theorem mem_named_of_rest (h : content.children = child :: other.children)
    (hc : c ∈ other.named name) : c ∈ content.named name := by
  unfold named at *
  rw [h, namedIn_cons]
  split
  · exact List.mem_cons_of_mem _ hc
  · exact hc

theorem mem_named_of_child (h : content.children = child :: other.children)
    (hname : child.1 = name) : child.2 ∈ content.named name := by
  unfold named
  rw [h, namedIn_cons, if_pos hname]
  exact List.mem_cons_self

end Content

/-! ## 3. Documents -/

/-- A document: blanks, comments and processing instructions, one element, and anything
    behind it. -/
structure Document where
  prolog : List (Gap × Aside)
  lead : Gap
  root : Tag
  inner : Content
  gap : Gap
  behind : List Char

def Document.writtenProlog (d : Document) : List Char :=
  (d.prolog.flatMap fun part => part.1.chars ++ '<' :: part.2.markup) ++ d.lead.chars

def Document.written (d : Document) : List Char :=
  d.writtenProlog ++ '<' :: (d.root.content ++ '>' :: (d.inner.written ++
    '<' :: '/' :: (d.root.name.chars ++ (d.gap.chars ++ '>' :: d.behind))))

/-- The events of a document, in front of those behind its root element. -/
def Document.events (d : Document) (es : Events) : Events :=
  d.prolog.foldr (fun _ es => .event .ignored es)
    (.event (.opening d.root.content) (d.inner.events (.event .closing es)))

theorem events_prolog (prolog : List (Gap × Aside)) (rest : List Char) :
    Reader.events .trimmed
        ⟨opened, (prolog.flatMap fun part => part.1.chars ++ '<' :: part.2.markup) ++ rest⟩ =
      prolog.foldr (fun _ es => .event .ignored es) (Reader.events .trimmed ⟨opened, rest⟩) := by
  induction prolog with
  | nil => rfl
  | cons part prolog ih =>
    simp only [List.flatMap_cons, List.append_assoc, List.cons_append, List.foldr_cons]
    rw [events_blanks fun _ => part.1.isMarkupBlank_of_mem, events_aside, ih]

/-- No document that is written begins with a byte order mark. -/
theorem head?_written (d : Document) : d.written.head? ≠ some byteOrderMark := by
  have hfront : ∃ (gap : Gap) (back : List Char), d.written = gap.chars ++ '<' :: back := by
    unfold Document.written Document.writtenProlog
    cases d.prolog with
    | nil => exact ⟨d.lead, _, rfl⟩
    | cons part prolog =>
      simp only [List.flatMap_cons, List.append_assoc, List.cons_append]
      exact ⟨part.1, _, rfl⟩
  obtain ⟨gap, back, hwritten⟩ := hfront
  rw [hwritten]
  intro hhead
  rcases hgap : gap.chars with _ | ⟨c, cs⟩
  · rw [hgap, List.nil_append, List.head?_cons, Option.some.injEq] at hhead
    exact absurd hhead (by decide)
  · rw [hgap, List.cons_append, List.head?_cons, Option.some.injEq] at hhead
    exact gap.notMem (show isMarkupBlank byteOrderMark = false by decide)
      (hgap ▸ hhead ▸ List.mem_cons_self)

/-- **A document is read as the events of its tree.** -/
theorem events_document (d : Document) :
    events .trimmed d.written = d.events (Reader.events .trimmed ⟨[], d.behind⟩) := by
  have hmark := head?_written d
  have hstart : Markup.events .trimmed d.written = Reader.events .trimmed ⟨[], d.written⟩ := by
    unfold Markup.events
    split
    · next c cs heq =>
      rw [heq, List.head?_cons, ne_eq, Option.some.injEq] at hmark
      rw [if_neg hmark, heq]
    · next heq => rw [heq]
  rw [hstart, Document.written, Document.writtenProlog, Document.events, List.append_assoc,
    events_prolog, events_blanks fun _ => d.lead.isMarkupBlank_of_mem, events_tag, events_content,
    events_endTag]

end NetconfClient.Markup
