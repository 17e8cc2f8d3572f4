/-
  NetconfClient/Proofs/Markup/Blanks.lean
  =======================================
  **Reading with blanks and without them.**

  A text is read with the blanks around its character data or without them, and both
  ways come to the same constructs (`events_trimmed`): without blanks, character data
  loses those at its ends, and is no event at all where nothing else is written.  So
  both ways find the same root, which is the first tag, behind the same prolog
  (`readings_cases`).  In the prolog stand character data and constructs that say nothing
  (`leading_of_mem_prolog`).
-/
import NetconfClient.Proofs.Markup.Nodes

namespace NetconfClient.Markup

open Text

variable {opened : List (List Char)} {data : List Char} {event : Event} {es : Events}

/-! ## 1. Events without blanks -/

/-- An event without the blanks around character data, of which nothing is left if it is
    nothing but blanks. -/
def Event.trimmed? : Event → Option Event
  | .text data =>
    if trimWhile isMarkupBlank data = [] then none else some (.text (trimWhile isMarkupBlank data))
  | .opening content => some (.opening content)
  | .empty content => some (.empty content)
  | .closing => some .closing
  | .ignored => some .ignored

/-- What an event puts in front of others without the blanks around character data. -/
def Event.trimmedBefore (event : Event) (es : Events) : Events :=
  match event.trimmed? with
  | some event => .event event es
  | none => es

/-- Events without the blanks around character data. -/
def Events.trimmed : Events → Events
  | .finished => .finished
  | .failed e => .failed e
  | .event event rest => event.trimmedBefore rest.trimmed

theorem trimmed?_of_readMarkup {cs : List Char} {next : Reader}
    (h : readMarkup opened cs = .ok (event, next)) : event.trimmed? = some event := by
  have hleads := leads_of_readMarkup h
  cases event with
  | text data => exact hleads.elim
  | _ => rfl

/-- Character data comes without the blanks around it, or not at all. -/
theorem events_trimmed_charData {rest : List Char} (hdata : '<' ∉ data)
    (hrest : ∀ c ∈ rest.head?, c = '<') :
    Reader.events .trimmed ⟨opened, data ++ rest⟩ =
      (Event.text data).trimmedBefore (Reader.events .trimmed ⟨opened, rest⟩) := by
  rw [Event.trimmedBefore, Event.trimmed?]
  by_cases hblank : trimWhile isMarkupBlank data = []
  · rw [if_pos hblank]
    exact events_blanks (trimWhile_eq_nil_iff.mp hblank) rest
  · rw [if_neg hblank]
    refine events_charData_append hdata ?_ hrest
    intro hskip
    rw [Blanks.skip] at hskip
    rw [trimWhile, hskip] at hblank
    exact hblank rfl

/-- **With blanks and without them a text is read as the same constructs.** -/
theorem Reader.events_trimmed (reader : Reader) :
    reader.events .trimmed = (reader.events .kept).trimmed := by
  -- character data and constructs take characters, so the induction is on what is left
  induction hlength : reader.rest.length using Nat.strong_induction_on generalizing reader with
  | _ n ih =>
    subst hlength
    obtain ⟨opened, cs⟩ := reader
    obtain ⟨data, rest, rfl, hdata, hrest⟩ := exists_charData cs
    by_cases hempty : data = []
    · subst hempty
      rw [List.nil_append]
      rcases rest with _ | ⟨c, rest⟩
      · rw [events_eq, events_eq .kept]
        rfl
      · obtain rfl : c = '<' := hrest c rfl
        rw [events_bracket, events_bracket]
        split
        · rfl
        · rcases hread : readMarkup opened rest with e | ⟨event, next⟩
          · rfl
          · have hshort := readMarkup_length hread
            have hnext := ih next.rest.length (by simp; omega) next rfl
            dsimp only
            rw [Events.trimmed, Event.trimmedBefore, trimmed?_of_readMarkup hread, hnext]
    · have hshort := List.length_pos_of_ne_nil hempty
      have hnext := ih rest.length (by simp; omega) ⟨opened, rest⟩ rfl
      have hkept : Reader.events .kept ⟨opened, data ++ rest⟩ =
          .event (.text data) (Reader.events .kept ⟨opened, rest⟩) :=
        events_charData_append hdata hempty hrest
      rw [events_trimmed_charData hdata hrest, hkept, Events.trimmed, hnext]

theorem events_trimmed (document : List Char) :
    events .trimmed document = (events .kept document).trimmed := by
  cases document with
  | nil => exact Reader.events_trimmed _
  | cons c cs =>
    rw [events, events]
    split
    · exact Reader.events_trimmed _
    · exact Reader.events_trimmed _

/-! ## 2. The root and what stands in front of it -/

/-- The events up to the end of the text or to what cannot be read. -/
def Events.toList : Events → List Event
  | .finished => []
  | .failed _ => []
  | .event event rest => event :: rest.toList

/-- Whether an event is the tag that an element begins with. -/
def Event.isTag : Event → Bool
  | .opening _ => true
  | .empty _ => true
  | .closing => false
  | .text _ => false
  | .ignored => false

/-- The tag of the outermost element. -/
def Events.root (es : Events) : Option Event := es.toList.find? Event.isTag

/-- The events in front of the tag of the outermost element. -/
def Events.prolog (es : Events) : List Event := es.toList.takeWhile (!·.isTag)

theorem trimmed?_of_isTag (h : event.isTag) : event.trimmed? = some event := by
  cases event with
  | text data => cases h
  | _ => rfl

theorem trimmed_foldr (front : List Event) (behind : Events) :
    Events.trimmed (front.foldr .event behind) =
      (front.filterMap Event.trimmed?).foldr .event behind.trimmed := by
  induction front with
  | nil => rfl
  | cons event front ih =>
    rw [List.foldr_cons, Events.trimmed, Event.trimmedBefore, ih, List.filterMap_cons]
    cases event.trimmed? with
    | none => rfl
    | some event => rfl

theorem prolog_event_of_isTag (h : event.isTag) (es : Events) :
    (Events.event event es).prolog = [] := by
  rw [Events.prolog, Events.toList, List.takeWhile_cons_of_neg (by simp [h])]

theorem prolog_event_of_not_isTag (h : event.isTag = false) (es : Events) :
    (Events.event event es).prolog = event :: es.prolog := by
  rw [Events.prolog, Events.toList, List.takeWhile_cons_of_pos (by simp [h]), Events.prolog]

theorem root_event_of_isTag (h : event.isTag) (es : Events) :
    (Events.event event es).root = some event := by
  rw [Events.root, Events.toList, List.find?_cons_of_pos h]

theorem root_event_of_not_isTag (h : event.isTag = false) (es : Events) :
    (Events.event event es).root = es.root := by
  rw [Events.root, Events.toList, List.find?_cons_of_neg (by simp [h]), Events.root]

/-- **Events are the prolog, the root and what follows it**, or there is no root. -/
theorem root_cases (es : Events) :
    (∃ tag rest, tag.isTag ∧ es.root = some tag ∧
        es = es.prolog.foldr .event (.event tag rest)) ∨
      es.root = none ∧
        ∃ last, (last = .finished ∨ ∃ e, last = .failed e) ∧ es = es.prolog.foldr .event last := by
  induction es with
  | finished => exact .inr ⟨rfl, .finished, .inl rfl, rfl⟩
  | failed e => exact .inr ⟨rfl, .failed e, .inr ⟨e, rfl⟩, rfl⟩
  | event event rest ih =>
    by_cases htag : event.isTag
    · refine .inl ⟨event, rest, htag, root_event_of_isTag htag rest, ?_⟩
      rw [prolog_event_of_isTag htag, List.foldr_nil]
    · rw [Bool.not_eq_true] at htag
      rw [root_event_of_not_isTag htag, prolog_event_of_not_isTag htag]
      rcases ih with ⟨tag, behind, hisTag, hroot, hrest⟩ | ⟨hroot, last, hlast, hrest⟩
      · exact .inl ⟨tag, behind, hisTag, hroot, congrArg (Events.event event) hrest⟩
      · exact .inr ⟨hroot, last, hlast, congrArg (Events.event event) hrest⟩

/-- **With blanks and without them the same root is found behind the same prolog**, or none. -/
theorem readings_cases {document : List Char} (hes : events .kept document = es) :
    (∃ tag rest, tag.isTag ∧ es.root = some tag ∧
        es = es.prolog.foldr .event (.event tag rest) ∧
        events .trimmed document =
          (es.prolog.filterMap Event.trimmed?).foldr .event (.event tag rest.trimmed)) ∨
      es.root = none ∧ ∃ last, (last = .finished ∨ ∃ e, last = .failed e) ∧
        es = es.prolog.foldr .event last ∧
        events .trimmed document = (es.prolog.filterMap Event.trimmed?).foldr .event last := by
  rw [events_trimmed, hes]
  rcases root_cases es with ⟨tag, rest, htag, hroot, hkept⟩ | ⟨hroot, last, hlast, hkept⟩
  · refine .inl ⟨tag, rest, htag, hroot, hkept, ?_⟩
    have htrimmed := trimmed_foldr es.prolog (.event tag rest)
    rwa [← hkept, Events.trimmed, Event.trimmedBefore, trimmed?_of_isTag htag] at htrimmed
  · refine .inr ⟨hroot, last, hlast, hkept, ?_⟩
    have htrimmed := trimmed_foldr es.prolog last
    rw [← hkept] at htrimmed
    rcases hlast with rfl | ⟨e, rfl⟩
    · exact htrimmed
    · exact htrimmed

/-- What may stand in front of the root: character data, and constructs that say nothing. -/
inductive Event.Leading : Event → Prop
  | text (data : List Char) : Leading (.text data)
  | ignored : Leading .ignored

theorem Event.Leading.trimmed {event' : Event} (h : event.Leading)
    (htrimmed : event.trimmed? = some event') : event'.Leading := by
  cases h with
  | text data =>
    rw [Event.trimmed?] at htrimmed
    split at htrimmed
    · cases htrimmed
    · cases htrimmed
      exact .text _
  | ignored =>
    cases htrimmed
    exact .ignored

/-- Nothing is open in front of the root, so nothing can be closed there. -/
theorem Reader.leading_of_mem_prolog {cs : List Char}
    (h : event ∈ (Reader.events .kept ⟨[], cs⟩).prolog) : event.Leading := by
  induction hlength : cs.length using Nat.strong_induction_on generalizing cs with
  | _ n ih =>
    subst hlength
    rcases hes : Reader.events .kept ⟨[], cs⟩ with _ | e | ⟨first, es⟩
    · rw [hes] at h
      cases h
    · rw [hes] at h
      cases h
    rw [hes] at h
    rcases events_cases hes with ⟨behind, ⟨opened, rest⟩, hcs, -, hread, rfl⟩ |
      ⟨data, rest, rfl, hcs, hne, -, -, rfl⟩
    · have hleads := leads_of_readMarkup hread
      have hshort := readMarkup_length hread
      obtain rfl : cs = '<' :: behind := hcs
      rw [List.length_cons] at ih
      cases first with
      | opening content => cases h
      | empty content => cases h
      | closing =>
        obtain ⟨name, hname⟩ := hleads
        cases hname
      | text data => exact hleads.elim
      | ignored =>
        obtain rfl : opened = [] := hleads
        rw [prolog_event_of_not_isTag rfl, List.mem_cons] at h
        rcases h with rfl | h
        · exact .ignored
        · exact ih rest.length (Nat.lt_succ_of_le hshort) h rfl
    · have hpos := List.length_pos_of_ne_nil hne
      obtain rfl : cs = data ++ rest := hcs
      rw [List.length_append] at ih
      rw [prolog_event_of_not_isTag rfl, List.mem_cons] at h
      rcases h with rfl | h
      · exact .text data
      · exact ih rest.length (by omega) h rfl

/-- **In front of the root stand character data and constructs that say nothing.** -/
theorem leading_of_mem_prolog {document : List Char} (hes : events .kept document = es) :
    ∀ event ∈ es.prolog, event.Leading := by
  subst hes
  intro event h
  cases document with
  | nil => exact Reader.leading_of_mem_prolog h
  | cons c cs =>
    rw [events] at h
    split at h
    · exact Reader.leading_of_mem_prolog h
    · exact Reader.leading_of_mem_prolog h

end NetconfClient.Markup
