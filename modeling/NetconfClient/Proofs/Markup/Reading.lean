/-
  NetconfClient/Proofs/Markup/Reading.lean
  ========================================
  **Reading one construct off whatever follows it.**

  What a tag is does not depend on the text behind it, so an element that is
  written is read piece by piece: its start tag, the character data up to the
  next tag, its end tag.
-/
import NetconfClient.Markup.Event
import NetconfClient.Proofs.Text.Trim

namespace NetconfClient.Markup

open Text

variable {blanks : Blanks} {opened : List (List Char)} {content rest : List Char}

/-! ## 1. Tags -/

theorem tagEnd_append {quote : Option Char} {cs : List Char}
    (h : tagEnd quote cs = some (content, rest)) (more : List Char) :
    tagEnd quote (cs ++ more) = some (content, rest ++ more) := by
  induction cs generalizing quote content with
  | nil => simp [tagEnd] at h
  | cons c cs ih =>
    rw [List.cons_append]
    simp only [tagEnd] at h ⊢
    split at h
    · obtain ⟨⟨front, back⟩, hr, heq⟩ := Option.map_eq_some_iff.mp h
      cases heq
      rw [ih hr]
      rfl
    · split at h
      · next hclose =>
        cases h
        rw [if_pos hclose]
      · next hclose =>
        obtain ⟨⟨front, back⟩, hr, heq⟩ := Option.map_eq_some_iff.mp h
        cases heq
        rw [if_neg hclose, ih hr]
        rfl

/-- A text that is the content of a tag when it is put between angle brackets. -/
def IsTagContent (content : List Char) : Prop :=
  content.head? ∉ [none, some '!', some '/', some '?'] ∧
    tagEnd none (content ++ ['>']) = some (content, [])

instance (content : List Char) : Decidable (IsTagContent content) :=
  inferInstanceAs (Decidable (_ ∧ _))

theorem IsTagContent.ne_nil (h : IsTagContent content) : content ≠ [] := by
  rintro rfl
  exact h.1 (by decide)

theorem readMarkup_tag (h : IsTagContent content) (opened : List (List Char)) (rest : List Char) :
    readMarkup opened (content ++ '>' :: rest) =
      if content.getLast? = some '/' then .ok (.empty content.dropLast, ⟨opened, rest⟩)
      else .ok (.opening content, ⟨tagName content :: opened, rest⟩) := by
  have hend : tagEnd none (content ++ '>' :: rest) = some (content, rest) := by
    have := tagEnd_append h.2 rest
    rwa [List.append_assoc, List.singleton_append, List.nil_append] at this
  have hopen : readMarkup opened (content ++ '>' :: rest) =
      readOpen opened (content ++ '>' :: rest) := by
    obtain ⟨c, cs, rfl⟩ := List.exists_cons_of_ne_nil h.ne_nil
    have hc := h.1
    simp only [List.head?_cons, List.mem_cons, List.not_mem_nil, or_false, not_or,
      Option.some.injEq] at hc
    rw [List.cons_append]
    unfold readMarkup
    split
    · next heq => exact absurd (List.cons.inj heq).1 hc.2.1
    · next heq => exact absurd (List.cons.inj heq).1 hc.2.2.1
    · next heq => exact absurd (List.cons.inj heq).1 hc.2.2.2
    · rfl
  rw [hopen, readOpen, hend]

theorem readMarkup_closing {name : List Char} (hcontent : '>' ∉ content)
    (hname : closingName content = name) (outer : List (List Char)) (rest : List Char) :
    readMarkup (name :: outer) ('/' :: (content ++ '>' :: rest)) = .ok (.closing, ⟨outer, rest⟩) := by
  rw [readMarkup, readClose, cut_append_cons rest hcontent]
  dsimp only
  rw [if_pos hname]
  rfl

/-! ## 2. Events -/

/-- What the events of a text are, where the blanks in front of it do not count. -/
theorem events_eq (blanks : Blanks) (reader : Reader) :
    reader.events blanks =
      match blanks.skip reader.rest with
      | [] => .finished
      | c :: cs =>
        if c = '<' then
          if cs = [] then .finished
          else
            match readMarkup reader.opened cs with
            | .error e => .failed e
            | .ok (event, next) => .event event (next.events blanks)
        else
          .event (.text (blanks.cutEnd (c :: cs.takeWhile (· ≠ '<'))))
            (Reader.events blanks ⟨reader.opened, cs.dropWhile (· ≠ '<')⟩) := by
  rw [Reader.events]
  split
  · next heq => rw [heq]
  · next c cs heq =>
    rw [heq]
    dsimp only
    split
    · split
      · rfl
      · split
        · next herror => rw [herror]
        · next hok => rw [hok]
    · rfl

/-- What begins with a `<` is read alike with blanks and without them. -/
theorem events_bracket (cs : List Char) :
    Reader.events blanks ⟨opened, '<' :: cs⟩ =
      if cs = [] then .finished
      else
        match readMarkup opened cs with
        | .error e => .failed e
        | .ok (event, next) => .event event (next.events blanks) := by
  have hskip : blanks.skip ('<' :: cs) = '<' :: cs := by
    cases blanks with
    | kept => rfl
    | trimmed => rfl
  rw [events_eq, hskip]
  dsimp only
  rw [if_pos rfl]

theorem events_markup {event : Event} {next : Reader} {cs : List Char} (hcs : cs ≠ [])
    (h : readMarkup opened cs = .ok (event, next)) :
    Reader.events blanks ⟨opened, '<' :: cs⟩ = .event event (next.events blanks) := by
  rw [events_bracket, if_neg hcs, h]

theorem events_opening (h : IsTagContent content) (hfull : content.getLast? ≠ some '/') :
    Reader.events blanks ⟨opened, '<' :: (content ++ '>' :: rest)⟩ =
      .event (.opening content) (Reader.events blanks ⟨tagName content :: opened, rest⟩) := by
  refine events_markup (by simp) ?_
  rw [readMarkup_tag h, if_neg hfull]

theorem events_empty (h : IsTagContent content) (hempty : content.getLast? = some '/') :
    Reader.events blanks ⟨opened, '<' :: (content ++ '>' :: rest)⟩ =
      .event (.empty content.dropLast) (Reader.events blanks ⟨opened, rest⟩) := by
  refine events_markup (by simp) ?_
  rw [readMarkup_tag h, if_pos hempty]

theorem events_closing {name : List Char} (hcontent : '>' ∉ content)
    (hname : closingName content = name) :
    Reader.events blanks ⟨name :: opened, '<' :: '/' :: (content ++ '>' :: rest)⟩ =
      .event .closing (Reader.events blanks ⟨opened, rest⟩) :=
  events_markup (by simp) (readMarkup_closing hcontent hname opened rest)

/-- Blanks in front of a construct do not count. -/
theorem events_blanks {front : List Char} (h : ∀ c ∈ front, isMarkupBlank c) (rest : List Char) :
    Reader.events .trimmed ⟨opened, front ++ rest⟩ = Reader.events .trimmed ⟨opened, rest⟩ := by
  have hskip : Blanks.trimmed.skip (front ++ rest) = Blanks.trimmed.skip rest :=
    List.dropWhile_append_of_pos h
  rw [events_eq, events_eq .trimmed ⟨opened, rest⟩, hskip]

/-- Character data at the beginning of a text, and a construct behind it if there is one. -/
theorem exists_charData (cs : List Char) :
    ∃ data rest, cs = data ++ rest ∧ '<' ∉ data ∧ ∀ c ∈ rest.head?, c = '<' := by
  refine ⟨cs.takeWhile (· ≠ '<'), cs.dropWhile (· ≠ '<'), List.takeWhile_append_dropWhile.symm,
    ?_, ?_⟩
  · intro hmem
    simpa using List.mem_takeWhile_imp hmem
  · intro c hc
    have hnot := List.head?_dropWhile_not (fun c : Char => decide (c ≠ '<')) cs
    rw [hc] at hnot
    simpa using hnot

/-- **Character data reaches up to the next construct**, or to the end of the text. -/
theorem events_charData_append {data : List Char} (hdata : '<' ∉ data)
    (hne : blanks.skip data ≠ []) (hrest : ∀ c ∈ rest.head?, c = '<') :
    Reader.events blanks ⟨opened, data ++ rest⟩ =
      .event (.text (blanks.cutEnd (blanks.skip data))) (Reader.events blanks ⟨opened, rest⟩) := by
  have hskip : blanks.skip (data ++ rest) = blanks.skip data ++ rest := by
    cases blanks with
    | kept => rfl
    | trimmed =>
      rw [Blanks.skip] at hne
      rw [Blanks.skip, List.dropWhile_append, if_neg (by simpa using hne), Blanks.skip]
  have hkept : (blanks.skip data).Sublist data := by
    cases blanks with
    | kept => exact List.Sublist.refl data
    | trimmed => exact List.dropWhile_sublist _
  have hend : rest.takeWhile (· ≠ '<') = [] ∧ rest.dropWhile (· ≠ '<') = rest := by
    cases rest with
    | nil => exact ⟨rfl, rfl⟩
    | cons c rest =>
      obtain rfl : c = '<' := hrest c rfl
      exact ⟨List.takeWhile_cons_of_neg (by simp), List.dropWhile_cons_of_neg (by simp)⟩
  obtain ⟨c, cs, hcs⟩ := List.exists_cons_of_ne_nil hne
  have hmem : ∀ d ∈ c :: cs, d ≠ '<' := by
    rintro d hd rfl
    exact hdata (hkept.mem (hcs ▸ hd))
  have hall : ∀ d ∈ cs, decide (d ≠ '<') = true := fun d hd =>
    decide_eq_true (hmem d (List.mem_cons_of_mem c hd))
  rw [events_eq, hskip, hcs, List.cons_append]
  dsimp only
  rw [if_neg (hmem c List.mem_cons_self), List.takeWhile_append_of_pos hall,
    List.dropWhile_append_of_pos hall, hend.1, hend.2, List.append_nil]

/-- Character data in front of a tag comes without the blanks around it. -/
theorem events_text {data : List Char} (hdata : '<' ∉ data)
    (hne : trimWhile isMarkupBlank data ≠ []) :
    Reader.events .trimmed ⟨opened, data ++ '<' :: rest⟩ =
      .event (.text (trimWhile isMarkupBlank data))
        (Reader.events .trimmed ⟨opened, '<' :: rest⟩) := by
  refine events_charData_append hdata ?_ (by simp)
  intro hskip
  rw [Blanks.skip] at hskip
  rw [trimWhile, hskip] at hne
  exact hne rfl

end NetconfClient.Markup
