/-
  NetconfClient/Markup/Event.lean
  ===============================
  **A document as a sequence of events.**

  The reader goes through a text once and checks no more than it needs to: that
  every construct is closed, and that an end tag bears the name of the innermost
  open start tag.  `Events` holds what it finds, up to the end of the text or to
  the first construct that it cannot read.
-/
import NetconfClient.Markup.Attribute

namespace NetconfClient.Markup

open Text

/-! ## 1. Errors -/

/-- A construct that a text may break off in. -/
inductive Construct where
  | bang
  | comment
  | cdata
  | doctype
  | declaration
  | element
  deriving DecidableEq, Repr

/-- The name of a construct in messages. -/
def Construct.name : Construct → String
  | bang => "Bang"
  | comment => "Comment"
  | cdata => "CData"
  | doctype => "DOCTYPE"
  | declaration => "XmlDecl"
  | element => "Element"

/-- Why a document cannot be read. -/
inductive MarkupError where
  /-- No construct begins with `<!` and that character. -/
  | unexpectedBang (c : Char)
  /-- A construct without its end. -/
  | unexpectedEnd (construct : Construct)
  | emptyDoctype
  /-- An end tag that does not match the innermost open start tag. -/
  | mismatch (expected found : List Char)
  | attributes (error : AttributeError)
  | entity (error : EntityError)
  deriving DecidableEq, Repr

/-- The wording of each cause. -/
def MarkupError.message : MarkupError → String
  | unexpectedBang c =>
    "Only Comment (`--`), CDATA (`[CDATA[`) and DOCTYPE (`DOCTYPE`) nodes can start " ++
      "with a '!', but symbol `" ++ c.toString ++ "` found"
  | unexpectedEnd construct => "Unexpected EOF during reading " ++ construct.name
  | emptyDoctype => "DOCTYPE declaration must not be empty"
  | mismatch expected found =>
    "Expecting </" ++ String.ofList expected ++ "> found </" ++ String.ofList found ++ ">"
  | attributes error => error.message
  | entity error => error.message

/-! ## 2. Events -/

/-- A construct of a document. -/
inductive Event where
  /-- A start tag, without its angle brackets. -/
  | opening (content : List Char)
  /-- The tag of an element without content, without its angle brackets and its slash. -/
  | empty (content : List Char)
  /-- An end tag. -/
  | closing
  /-- Character data. -/
  | text (data : List Char)
  /-- A comment, a character section, a document type or a processing instruction. -/
  | ignored
  deriving DecidableEq, Repr

/-- What a reader finds one after the other. -/
inductive Events where
  /-- The end of the text. -/
  | finished
  | failed (error : MarkupError)
  | event (event : Event) (rest : Events)
  deriving DecidableEq, Repr

/-! ## 3. Where constructs end -/

/-- The characters in front of the first `>` at which the characters in front of it
    (the last one first) satisfy `ok`, and the characters behind it. -/
def closeAt (ok : List Char → Bool) : List Char → List Char → Option (List Char × List Char)
  | _, [] => none
  | seen, c :: cs =>
    if c = '>' ∧ ok seen then some (seen.reverse, cs) else closeAt ok (c :: seen) cs

/-- A comment ends at a `>` behind `--`, not before the sixth character. -/
def endsComment (seen : List Char) : Bool :=
  5 ≤ seen.length && ['-', '-'].isPrefixOf seen

/-- A character section ends at a `>` behind `]]`. -/
def endsCdata (seen : List Char) : Bool := [']', ']'].isPrefixOf seen

/-- A document type ends at a `>` in front of which as many tags begin as end. -/
def endsDoctype (seen : List Char) : Bool := seen.count '<' == seen.count '>'

/-- The content of a tag and what follows its `>`; a `>` between quotes does not count.
    `quote` is the quote that is open, if one is. -/
def tagEnd (quote : Option Char) : List Char → Option (List Char × List Char)
  | [] => none
  | c :: cs =>
    match quote with
    | some q => (tagEnd (if c = q then none else some q) cs).map fun r => (c :: r.1, r.2)
    | none =>
      if c = '>' then some ([], cs)
      else
        (tagEnd (if c = '"' ∨ c = '\'' then some c else none) cs).map fun r => (c :: r.1, r.2)

/-! ## 4. Reading -/

/-- A text being read: the names of the open elements, the innermost first, and
    what is left. -/
structure Reader where
  opened : List (List Char)
  rest : List Char
  deriving DecidableEq, Repr

/-- Whether a text begins with a word, the case of ASCII letters aside. -/
def beginsWith (word cs : List Char) : Bool :=
  word.map Char.toLower == (cs.take word.length).map Char.toLower

/-- Reads what begins with `<!`; `cs` begins with the `!`. -/
def readBang (cs : List Char) : Except MarkupError (Event × List Char) :=
  match cs.drop 1 with
  | [] => .error (.unexpectedEnd .bang)
  | c :: _ =>
    if c = '-' then
      match closeAt endsComment [] cs with
      | some (content, rest) =>
        if "!--".toList.isPrefixOf content then .ok (.ignored, rest)
        else .error (.unexpectedEnd .comment)
      | none => .error (.unexpectedEnd .comment)
    else if c = '[' then
      match closeAt endsCdata [] cs with
      | some (content, rest) =>
        if beginsWith "![CDATA[".toList content then .ok (.ignored, rest)
        else .error (.unexpectedEnd .cdata)
      | none => .error (.unexpectedEnd .cdata)
    else if c = 'D' ∨ c = 'd' then
      match closeAt endsDoctype [] cs with
      | some (content, rest) =>
        if beginsWith "!DOCTYPE".toList content then
          if (content.drop 8).all isMarkupBlank then .error .emptyDoctype
          else .ok (.ignored, rest)
        else .error (.unexpectedEnd .doctype)
      | none => .error (.unexpectedEnd .doctype)
    else .error (.unexpectedBang (Utf8.firstOctet c))

/-- Reads what begins with `<?`; `cs` begins with the `?`. -/
def readQuestion (cs : List Char) : Except MarkupError (Event × List Char) :=
  match cut '>' cs with
  | (content, rest) =>
    if Utf8.size content > 2 ∧ content.getLast? = some '?' then .ok (.ignored, rest.getD [])
    else .error (.unexpectedEnd .declaration)

/-- The name in an end tag; blanks behind it do not count. -/
def closingName (content : List Char) : List Char :=
  if content.all isMarkupBlank then content else dropEndWhile isMarkupBlank content

/-- Reads an end tag behind its `</`. -/
def readClose (opened : List (List Char)) (cs : List Char) :
    Except MarkupError (Event × Reader) :=
  match cut '>' cs with
  | (content, rest) =>
    match opened with
    | [] => .error (.mismatch [] content)
    | name :: outer =>
      if closingName content = name then .ok (.closing, ⟨outer, rest.getD []⟩)
      else .error (.mismatch name (closingName content))

/-- Reads a start tag or the tag of an element without content behind its `<`. -/
def readOpen (opened : List (List Char)) (cs : List Char) :
    Except MarkupError (Event × Reader) :=
  match tagEnd none cs with
  | none => .error (.unexpectedEnd .element)
  | some (content, rest) =>
    if content.getLast? = some '/' then .ok (.empty content.dropLast, ⟨opened, rest⟩)
    else .ok (.opening content, ⟨tagName content :: opened, rest⟩)

/-- Reads a construct behind its `<`, of which something is left. -/
def readMarkup (opened : List (List Char)) (cs : List Char) :
    Except MarkupError (Event × Reader) :=
  match cs with
  | '!' :: _ => (readBang cs).map fun r => (r.1, ⟨opened, r.2⟩)
  | '/' :: name => readClose opened name
  | '?' :: _ => (readQuestion cs).map fun r => (r.1, ⟨opened, r.2⟩)
  | _ => readOpen opened cs

/-! ## 5. Every construct takes characters -/

theorem closeAt_length {ok : List Char → Bool} {seen cs content rest : List Char}
    (h : closeAt ok seen cs = some (content, rest)) : rest.length < cs.length := by
  induction cs generalizing seen with
  | nil => simp [closeAt] at h
  | cons c cs ih =>
    simp only [closeAt] at h
    split at h
    · cases h; simp
    · exact Nat.lt_succ_of_lt (ih h)

theorem tagEnd_length {quote : Option Char} {cs content rest : List Char}
    (h : tagEnd quote cs = some (content, rest)) : rest.length < cs.length := by
  induction cs generalizing quote content with
  | nil => simp [tagEnd] at h
  | cons c cs ih =>
    simp only [tagEnd] at h
    split at h
    · obtain ⟨⟨front, back⟩, hr, heq⟩ := Option.map_eq_some_iff.1 h
      cases heq
      exact Nat.lt_succ_of_lt (ih hr)
    · split at h
      · cases h; simp
      · obtain ⟨⟨front, back⟩, hr, heq⟩ := Option.map_eq_some_iff.1 h
        cases heq
        exact Nat.lt_succ_of_lt (ih hr)

theorem cut_rest_length_le (sep : Char) (cs : List Char) :
    ((cut sep cs).2.getD []).length ≤ cs.length := by
  cases h : (cut sep cs).2 with
  | none => simp
  | some back =>
    have := congrArg List.length (cut_some h)
    simp only [List.length_append, List.length_cons] at this
    simp only [Option.getD_some]
    omega

theorem readBang_length {cs rest : List Char} {event : Event}
    (h : readBang cs = .ok (event, rest)) : rest.length < cs.length := by
  unfold readBang at h
  split at h
  · cases h
  · split at h
    · split at h
      · next hclose =>
        split at h
        · cases h; exact closeAt_length hclose
        · cases h
      · cases h
    · split at h
      · split at h
        · next hclose =>
          split at h
          · cases h; exact closeAt_length hclose
          · cases h
        · cases h
      · split at h
        · split at h
          · next hclose =>
            split at h
            · split at h
              · cases h
              · cases h; exact closeAt_length hclose
            · cases h
          · cases h
        · cases h

theorem readQuestion_length {cs rest : List Char} {event : Event}
    (h : readQuestion cs = .ok (event, rest)) : rest.length ≤ cs.length := by
  have hle := cut_rest_length_le '>' cs
  unfold readQuestion at h
  split at h
  next content back hcut =>
    rw [hcut] at hle
    split at h
    · cases h; exact hle
    · cases h

theorem readClose_length {opened : List (List Char)} {cs : List Char} {event : Event}
    {reader : Reader} (h : readClose opened cs = .ok (event, reader)) :
    reader.rest.length ≤ cs.length := by
  have hle := cut_rest_length_le '>' cs
  unfold readClose at h
  split at h
  next content back hcut =>
    rw [hcut] at hle
    split at h
    · cases h
    · split at h
      · cases h; exact hle
      · cases h

theorem readOpen_length {opened : List (List Char)} {cs : List Char} {event : Event}
    {reader : Reader} (h : readOpen opened cs = .ok (event, reader)) :
    reader.rest.length < cs.length := by
  unfold readOpen at h
  split at h
  · cases h
  · next hend =>
    have := tagEnd_length hend
    split at h <;> cases h <;> exact this

/-- Reading a construct does not lengthen what is left. -/
theorem readMarkup_length {opened : List (List Char)} {cs : List Char} {event : Event}
    {reader : Reader} (h : readMarkup opened cs = .ok (event, reader)) :
    reader.rest.length ≤ cs.length := by
  unfold readMarkup at h
  split at h
  · cases hb : readBang _ with
    | error e => rw [hb] at h; cases h
    | ok r =>
      obtain ⟨e, rest⟩ := r
      rw [hb] at h
      cases h
      exact Nat.le_of_lt (readBang_length hb)
  · exact Nat.le_succ_of_le (readClose_length h)
  · cases hq : readQuestion _ with
    | error e => rw [hq] at h; cases h
    | ok r =>
      obtain ⟨e, rest⟩ := r
      rw [hq] at h
      cases h
      exact readQuestion_length hq
  · exact Nat.le_of_lt (readOpen_length h)

/-! ## 6. The events of a text -/

/-- Whether character data is given with the blanks around it or without. -/
inductive Blanks where
  | kept
  | trimmed
  deriving DecidableEq, Repr

/-- What is left in front of an event. -/
def Blanks.skip : Blanks → List Char → List Char
  | kept, cs => cs
  | trimmed, cs => cs.dropWhile isMarkupBlank

/-- Character data as it is given. -/
def Blanks.cutEnd : Blanks → List Char → List Char
  | kept, cs => cs
  | trimmed, cs => dropEndWhile isMarkupBlank cs

theorem Blanks.length_skip_le (blanks : Blanks) (cs : List Char) :
    (blanks.skip cs).length ≤ cs.length := by
  cases blanks
  · exact Nat.le_refl _
  · exact (List.dropWhile_sublist _).length_le

/-- The events of what is left. -/
def Reader.events (blanks : Blanks) (reader : Reader) : Events :=
  match _h : blanks.skip reader.rest with
  | [] => .finished
  | c :: cs =>
    if _hc : c = '<' then
      if cs = [] then .finished
      else
        match _hm : readMarkup reader.opened cs with
        | .error e => .failed e
        | .ok (event, next) => .event event (next.events blanks)
    else
      .event (.text (blanks.cutEnd (c :: cs.takeWhile (· ≠ '<'))))
        (Reader.events blanks ⟨reader.opened, cs.dropWhile (· ≠ '<')⟩)
termination_by reader.rest.length
decreasing_by
  all_goals
    have hle := blanks.length_skip_le reader.rest
    rw [_h, List.length_cons] at hle
  · have := readMarkup_length _hm
    omega
  · have hle : (cs.dropWhile (· ≠ '<')).length ≤ cs.length := (List.dropWhile_sublist _).length_le
    omega

/-- The mark that may stand in front of a text. -/
def byteOrderMark : Char := '\uFEFF'

/-- The events of a document. -/
def events (blanks : Blanks) (document : List Char) : Events :=
  match document with
  | c :: cs =>
    if c = byteOrderMark then Reader.events blanks ⟨[], cs⟩ else Reader.events blanks ⟨[], c :: cs⟩
  | [] => Reader.events blanks ⟨[], []⟩

end NetconfClient.Markup
