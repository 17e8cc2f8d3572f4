/-
  NetconfClient/Proofs/Markup/Nodes.lean
  ======================================
  **The tree that a text is read as.**

  `Nodes` is what stands between two tags.  `Forms` builds it from events: character
  data is unescaped, elements are closed, comments and the like leave nothing.  In
  front of an end tag, or of the end of the text, events form one tree at most
  (`Forms.unique`).

    * `Forms.within`: content that is read up to its end tag is read alike inside
      other elements and in front of other text;
    * `Forms.length_chars_le`: without elements there is no more text than is
      written, and as much only if the text is written as itself;
    * `length_of_closing`: an end tag takes three characters and those of its name.
-/
import NetconfClient.Proofs.Markup.Interruption

namespace NetconfClient.Markup

open Text

/-! ## 1. Trees -/

/-- What stands between two tags. -/
inductive Nodes where
  | none
  | text (value : List Char) (rest : Nodes)
  | element (name : List Char) (inner rest : Nodes)
  deriving DecidableEq, Repr

/-- The elements, each with its name and what is inside it. -/
def Nodes.elements : Nodes → List (List Char × Nodes)
  | none => []
  | text _ rest => rest.elements
  | element name inner rest => (name, inner) :: rest.elements

/-- The text outside the elements. -/
def Nodes.chars : Nodes → List Char
  | none => []
  | text value rest => value ++ rest.chars
  | element _ _ rest => rest.chars

/-- The first events form these nodes, and the others are left. -/
inductive Forms : Events → Nodes → Events → Prop
  | none (es : Events) : Forms es .none es
  | text {data value : List Char} {es rest : Events} {nodes : Nodes}
      (hvalue : unescape data = .ok value) (hnodes : Forms es nodes rest) :
      Forms (.event (.text data) es) (.text value nodes) rest
  | ignored {es rest : Events} {nodes : Nodes} (hnodes : Forms es nodes rest) :
      Forms (.event .ignored es) nodes rest
  | empty {content : List Char} {es rest : Events} {nodes : Nodes}
      (hnodes : Forms es nodes rest) :
      Forms (.event (.empty content) es) (.element (tagName content) .none nodes) rest
  | element {content : List Char} {es behind rest : Events} {inner nodes : Nodes}
      (hinner : Forms es inner (.event .closing behind)) (hnodes : Forms behind nodes rest) :
      Forms (.event (.opening content) es) (.element (tagName content) inner nodes) rest

/-- Whether no further node begins. -/
def Events.Stops : Events → Prop
  | finished | failed _ | event .closing _ => True
  | event (.opening _) _ | event (.empty _) _ | event (.text _) _ | event .ignored _ => False

variable {es es' rest rest' behind : Events} {nodes nodes' : Nodes} {event : Event}
  {r next : Reader} {opened : List (List Char)} {cs data value : List Char}

theorem Forms.ne_finished (h : Forms es nodes (.event event rest)) : es ≠ .finished := by
  rintro rfl
  cases h

/-- **Events form one tree at most.** -/
theorem Forms.unique (h : Forms es nodes rest) (h' : Forms es nodes' rest') (hrest : rest.Stops)
    (hrest' : rest'.Stops) : nodes = nodes' ∧ rest = rest' := by
  induction h generalizing nodes' rest' with
  | none es =>
    cases h' with
    | none => exact ⟨rfl, rfl⟩
    | text | ignored | empty | element => exact hrest.elim
  | text hvalue _ ih =>
    cases h' with
    | none => exact hrest'.elim
    | text hvalue' hnodes' =>
      obtain ⟨rfl, rfl⟩ := ih hnodes' hrest hrest'
      exact ⟨by rw [Except.ok.inj (hvalue.symm.trans hvalue')], rfl⟩
  | ignored _ ih =>
    cases h' with
    | none => exact hrest'.elim
    | ignored hnodes' => exact ih hnodes' hrest hrest'
  | empty _ ih =>
    cases h' with
    | none => exact hrest'.elim
    | empty hnodes' =>
      obtain ⟨rfl, rfl⟩ := ih hnodes' hrest hrest'
      exact ⟨rfl, rfl⟩
  | element _ _ ihinner ih =>
    cases h' with
    | none => exact hrest'.elim
    | element hinner' hnodes' =>
      obtain ⟨rfl, hbehind⟩ := ihinner hinner' trivial trivial
      obtain ⟨-, rfl⟩ := Events.event.inj hbehind
      obtain ⟨rfl, rfl⟩ := ih hnodes' hrest hrest'
      exact ⟨rfl, rfl⟩

/-! ## 2. What is left of a text -/

theorem cut_suffix (sep : Char) (cs : List Char) : (cut sep cs).2.getD [] <:+ cs := by
  rcases hback : (cut sep cs).2 with _ | back
  · exact List.nil_suffix
  · refine ⟨(cut sep cs).1 ++ [sep], ?_⟩
    rw [Option.getD_some, List.append_assoc, List.singleton_append, ← cut_some hback]

theorem closeAt_suffix {ok : List Char → Bool} {seen content back : List Char}
    (h : closeAt ok seen cs = some (content, back)) : back <:+ cs := by
  induction cs generalizing seen with
  | nil => cases h
  | cons c cs ih =>
    rw [closeAt] at h
    split at h
    · cases h
      exact List.suffix_cons c _
    · exact (ih h).trans (List.suffix_cons c cs)

theorem tagEnd_suffix {quote : Option Char} {content back : List Char}
    (h : tagEnd quote cs = some (content, back)) : back <:+ cs := by
  induction cs generalizing quote content with
  | nil => cases h
  | cons c cs ih =>
    simp only [tagEnd] at h
    split at h
    · obtain ⟨⟨front, back'⟩, hr, heq⟩ := Option.map_eq_some_iff.mp h
      cases heq
      exact (ih hr).trans (List.suffix_cons c cs)
    · split at h
      · cases h
        exact List.suffix_cons c _
      · obtain ⟨⟨front, back'⟩, hr, heq⟩ := Option.map_eq_some_iff.mp h
        cases heq
        exact (ih hr).trans (List.suffix_cons c cs)

theorem readBang_suffix {back : List Char} (h : readBang cs = .ok (event, back)) : back <:+ cs := by
  unfold readBang at h
  split at h
  · cases h
  · repeat' split at h
    all_goals cases h
    all_goals exact closeAt_suffix ‹_›

/-- **What is left behind a construct is the end of the text.** -/
theorem readMarkup_suffix (h : readMarkup opened cs = .ok (event, next)) : next.rest <:+ cs := by
  unfold readMarkup at h
  split at h
  · next back =>
    rcases hbang : readBang ('!' :: back) with e | ⟨event', left⟩
    · rw [hbang] at h
      cases h
    · rw [hbang] at h
      cases h
      exact readBang_suffix hbang
  · next name =>
    have hsuffix := (cut_suffix '>' name).trans (List.suffix_cons '/' name)
    unfold readClose at h
    dsimp only at h
    split at h
    · cases h
    · split at h
      · cases h
        exact hsuffix
      · cases h
  · next back =>
    have hsuffix := cut_suffix '>' ('?' :: back)
    unfold readQuestion at h
    dsimp only at h
    split at h
    · cases h
      exact hsuffix
    · cases h
  · unfold readOpen at h
    split at h
    · cases h
    · next hend =>
      split at h
      · cases h
        exact tagEnd_suffix hend
      · cases h
        exact tagEnd_suffix hend

/-- A text that ends with a `>`, or has come to its end. -/
def EndsMarkup (cs : List Char) : Prop := ∀ c, cs.getLast? = some c → c = '>'

theorem EndsMarkup.suffix {back : List Char} (h : EndsMarkup cs) (hback : back <:+ cs) :
    EndsMarkup back := by
  intro c hc
  obtain ⟨front, rfl⟩ := hback
  refine h c ?_
  rw [List.getLast?_append, hc, Option.some_or]

theorem EndsMarkup.mem {c : Char} (h : EndsMarkup (c :: cs)) (hcs : cs ≠ []) : '>' ∈ cs := by
  have hlast := List.getLast?_eq_some_getLast hcs
  have hclose : cs.getLast hcs = '>' := by
    refine h _ ?_
    rw [List.getLast?_cons_of_ne_nil hcs, hlast]
  exact hclose ▸ List.getLast_mem hcs

/-! ## 3. Where an event comes from -/

theorem events_kept_text (hdata : '<' ∉ data) (hne : data ≠ []) (rest : List Char) :
    Reader.events .kept ⟨opened, data ++ '<' :: rest⟩ =
      .event (.text data) (Reader.events .kept ⟨opened, '<' :: rest⟩) :=
  events_charData_append hdata hne (by simp)

theorem events_nil (opened : List (List Char)) : Reader.events .kept ⟨opened, []⟩ = .finished := by
  rw [events_eq]
  rfl

/-- An event is read off markup, or it is the character data up to the next markup. -/
theorem events_cases (h : r.events .kept = .event event es) :
    (∃ cs next, r.rest = '<' :: cs ∧ cs ≠ [] ∧ readMarkup r.opened cs = .ok (event, next) ∧
      es = next.events .kept) ∨
    ∃ data back, event = .text data ∧ r.rest = data ++ back ∧ data ≠ [] ∧ '<' ∉ data ∧
      (back = [] ∨ ∃ cs, back = '<' :: cs) ∧ es = Reader.events .kept ⟨r.opened, back⟩ := by
  rw [events_eq] at h
  rcases hrest : r.rest with _ | ⟨c, cs⟩
  · simp [hrest, Blanks.skip] at h
  · simp only [hrest, Blanks.skip, Blanks.cutEnd] at h
    by_cases hc : c = '<'
    · rw [if_pos hc] at h
      by_cases hcs : cs = []
      · simp [hcs] at h
      · rw [if_neg hcs] at h
        rcases hread : readMarkup r.opened cs with e | ⟨event', next⟩
        · simp [hread] at h
        · simp only [hread, Events.event.injEq] at h
          obtain ⟨rfl, rfl⟩ := h
          exact .inl ⟨cs, next, by rw [hc], hcs, hread, rfl⟩
    · rw [if_neg hc, Events.event.injEq] at h
      obtain ⟨rfl, rfl⟩ := h
      refine .inr ⟨_, cs.dropWhile (· ≠ '<'), rfl, ?_, by simp, ?_, ?_, rfl⟩
      · rw [List.cons_append, List.takeWhile_append_dropWhile]
      · intro hmem
        rcases List.mem_cons.mp hmem with heq | hmem
        · exact hc heq.symm
        · simpa using List.mem_takeWhile_imp hmem
      · rcases hback : cs.dropWhile (· ≠ '<') with _ | ⟨d, back⟩
        · exact .inl rfl
        · have hd := List.head?_dropWhile_not (· ≠ '<') cs
          rw [hback] at hd
          exact .inr ⟨back, by simpa using hd⟩

/-- Nothing is left of a text that ends with markup once there are no more events. -/
theorem rest_of_finished (h : r.events .kept = .finished) (hends : EndsMarkup r.rest) :
    r.rest = [] := by
  rw [events_eq] at h
  rcases hrest : r.rest with _ | ⟨c, cs⟩
  · rfl
  · simp only [hrest, Blanks.skip] at h hends
    by_cases hc : c = '<'
    · rw [if_pos hc] at h
      by_cases hcs : cs = []
      · subst hcs
        exact absurd (hc.symm.trans (hends c rfl)) (by decide)
      · rw [if_neg hcs] at h
        split at h
        · cases h
        · cases h
    · rw [if_neg hc] at h
      cases h

/-! ## 4. Content in other surroundings -/

/-- What is open further outside plays no part in reading a construct. -/
theorem readMarkup_within {opened' : List (List Char)} {back : List Char}
    (h : readMarkup opened cs = .ok (event, ⟨opened', back⟩)) (outer : List (List Char)) :
    readMarkup (opened ++ outer) cs = .ok (event, ⟨opened' ++ outer, back⟩) := by
  unfold readMarkup at h ⊢
  split at h
  · next body =>
    rcases hbang : readBang ('!' :: body) with e | ⟨event', left⟩
    · rw [hbang] at h
      cases h
    · rw [hbang] at h
      cases h
      rfl
  · unfold readClose at h ⊢
    dsimp only at h ⊢
    split at h
    · cases h
    · next name outside =>
      split at h
      · next hname =>
        cases h
        exact if_pos hname
      · cases h
  · next body =>
    rcases hquestion : readQuestion ('?' :: body) with e | ⟨event', left⟩
    · rw [hquestion] at h
      cases h
    · rw [hquestion] at h
      cases h
      rfl
  · unfold readOpen at h ⊢
    split at h
    · cases h
    · split at h
      · next hempty =>
        cases h
        exact if_pos hempty
      · next hfull =>
        cases h
        exact if_neg hfull

/-- Markup is read off a text that ends with markup whatever is open outside and whatever
    follows. -/
theorem events_within (h : r.events .kept = .event event es) (hends : EndsMarkup r.rest)
    (hevent : ∀ data, event ≠ .text data) :
    ∃ next : Reader, es = next.events .kept ∧ event.Leads r.opened next.opened ∧
      next.rest <:+ r.rest ∧ ∀ outer more,
        Reader.events .kept ⟨r.opened ++ outer, r.rest ++ more⟩ =
          .event event (Reader.events .kept ⟨next.opened ++ outer, next.rest ++ more⟩) := by
  rcases events_cases h with ⟨cs, next, hrest, hcs, hread, rfl⟩ | ⟨data, _, hdata, -⟩
  · refine ⟨next, rfl, leads_of_readMarkup hread, ?_, ?_⟩
    · rw [hrest]
      exact (readMarkup_suffix hread).trans (List.suffix_cons '<' cs)
    · intro outer more
      rw [hrest] at hends
      have hclosed : '>' ∈ cs := hends.mem hcs
      have hwithin := readMarkup_append hclosed (readMarkup_within hread outer) more
      rw [hrest, List.cons_append]
      exact events_markup (List.append_ne_nil_of_left_ne_nil hcs more) hwithin
  · exact absurd hdata (hevent data)

/-- So is character data, if something follows it already. -/
theorem events_text_within (h : r.events .kept = .event (.text data) es) (hes : es ≠ .finished) :
    ∃ next : Reader, es = next.events .kept ∧ next.opened = r.opened ∧
      next.rest <:+ r.rest ∧ ∀ outer more,
        Reader.events .kept ⟨r.opened ++ outer, r.rest ++ more⟩ =
          .event (.text data) (Reader.events .kept ⟨next.opened ++ outer, next.rest ++ more⟩) := by
  rcases events_cases h with ⟨cs, next, -, -, hread, -⟩ |
    ⟨data, back, hdata, hrest, hne, hopen, hback, rfl⟩
  · exact (leads_of_readMarkup hread).elim
  · cases hdata
    rcases hback with rfl | ⟨cs, rfl⟩
    · exact absurd (events_nil r.opened) hes
    · refine ⟨⟨r.opened, '<' :: cs⟩, rfl, rfl, ?_, ?_⟩
      · rw [hrest]
        exact List.suffix_append data _
      · intro outer more
        rw [hrest, List.append_assoc, List.cons_append]
        exact events_kept_text hopen hne (cs ++ more)

/-- **Content is read alike inside other elements and in front of other text**, if it is read
    up to its end tag and the text ends with markup. -/
theorem Forms.within (h : Forms es nodes (.event .closing behind)) (hes : es = r.events .kept)
    (hends : EndsMarkup r.rest) :
    ∃ (name : List Char) (next : Reader), behind = next.events .kept ∧
      r.opened = name :: next.opened ∧ next.rest <:+ r.rest ∧ ∀ outer more,
        Forms (Reader.events .kept ⟨r.opened ++ outer, r.rest ++ more⟩) nodes
          (.event .closing (Reader.events .kept ⟨next.opened ++ outer, next.rest ++ more⟩)) := by
  -- one case for each node; an element is read up to its own end tag first
  generalize hrest : Events.event .closing behind = rest at h
  induction h generalizing r behind with
  | none es =>
    obtain ⟨next, hbehind, ⟨name, hopened⟩, hsuffix, hwithin⟩ :=
      events_within (hes.symm.trans hrest.symm) hends (by simp)
    refine ⟨name, next, hbehind, hopened, hsuffix, ?_⟩
    intro outer more
    rw [hwithin outer more]
    exact .none _
  | text hvalue hnodes ih =>
    subst hrest
    obtain ⟨middle, rfl, hsame, hsuffix, hwithin⟩ :=
      events_text_within hes.symm hnodes.ne_finished
    obtain ⟨name, next, hbehind, hopened, hsuffix', hforms⟩ := ih rfl (hends.suffix hsuffix) rfl
    refine ⟨name, next, hbehind, hsame ▸ hopened, hsuffix'.trans hsuffix, ?_⟩
    intro outer more
    rw [hwithin outer more]
    exact .text hvalue (hforms outer more)
  | ignored hnodes ih =>
    obtain ⟨middle, rfl, hsame, hsuffix, hwithin⟩ := events_within hes.symm hends (by simp)
    obtain ⟨name, next, hbehind, hopened, hsuffix', hforms⟩ := ih rfl (hends.suffix hsuffix) hrest
    refine ⟨name, next, hbehind, hsame.symm.trans hopened, hsuffix'.trans hsuffix, ?_⟩
    intro outer more
    rw [hwithin outer more]
    exact .ignored (hforms outer more)
  | empty hnodes ih =>
    obtain ⟨middle, rfl, hsame, hsuffix, hwithin⟩ := events_within hes.symm hends (by simp)
    obtain ⟨name, next, hbehind, hopened, hsuffix', hforms⟩ := ih rfl (hends.suffix hsuffix) hrest
    refine ⟨name, next, hbehind, hsame.symm.trans hopened, hsuffix'.trans hsuffix, ?_⟩
    intro outer more
    rw [hwithin outer more]
    exact .empty (hforms outer more)
  | element hinner hnodes ihinner ih =>
    obtain ⟨start, rfl, hentered, hsuffix, hwithin⟩ := events_within hes.symm hends (by simp)
    obtain ⟨closed, middle, rfl, hleft, hsuffix', hforms⟩ :=
      ihinner rfl (hends.suffix hsuffix) rfl
    have hsame : middle.opened = r.opened := (List.cons.inj (hleft.symm.trans hentered)).2
    obtain ⟨name, next, hbehind, hopened, hsuffix'', hforms'⟩ :=
      ih rfl (hends.suffix (hsuffix'.trans hsuffix)) hrest
    refine ⟨name, next, hbehind, hsame ▸ hopened, hsuffix''.trans (hsuffix'.trans hsuffix), ?_⟩
    intro outer more
    rw [hwithin outer more]
    exact .element (hforms outer more) (hforms' outer more)

/-! ## 5. How much text there is -/

/-- Character data is not shorter than the text that it stands for. -/
theorem StandsFor.length_le (h : StandsFor data value) :
    value.length ≤ data.length ∧ (value.length = data.length → '&' ∉ data) := by
  induction h with
  | nil => exact ⟨Nat.le_refl 0, fun _ => List.not_mem_nil⟩
  | plain hc _ ih =>
    obtain ⟨hle, hsame⟩ := ih
    refine ⟨Nat.succ_le_succ hle, ?_⟩
    intro hlength
    rw [List.mem_cons, not_or]
    exact ⟨Ne.symm hc, hsame (Nat.succ.inj hlength)⟩
  | entity _ _ ih =>
    obtain ⟨hle, -⟩ := ih
    simp only [List.length_cons, List.length_append]
    constructor
    · omega
    · intro hlength
      omega

/-- **Without elements there is no more text than is written**, and as much only if the text is
    written as itself. -/
theorem Forms.length_chars_le (h : Forms es nodes rest) (hes : es = r.events .kept)
    (hnone : nodes.elements = []) :
    ∃ next : Reader, rest = next.events .kept ∧ next.opened = r.opened ∧ next.rest <:+ r.rest ∧
      nodes.chars.length + next.rest.length ≤ r.rest.length ∧
      (nodes.chars.length + next.rest.length = r.rest.length →
        ∃ written, r.rest = written ++ next.rest ∧ '<' ∉ written ∧ '&' ∉ written) := by
  induction h generalizing r with
  | none es =>
    refine ⟨r, hes, rfl, List.suffix_refl _, by simp [Nodes.chars], ?_⟩
    intro _
    exact ⟨[], rfl, List.not_mem_nil, List.not_mem_nil⟩
  | @text data value es rest nodes hvalue hnodes ih =>
    rcases events_cases hes.symm with ⟨cs, next, -, -, hread, -⟩ |
      ⟨data', back, hdata', hrest, -, hopen, -, rfl⟩
    · exact (leads_of_readMarkup hread).elim
    · cases hdata'
      obtain ⟨next, hbehind, hopened, hsuffix, hle, hsame⟩ := ih rfl hnone
      obtain ⟨hvaluele, hvaluesame⟩ := (unescape_eq_ok_iff.mp hvalue).length_le
      dsimp only at hle hsame
      simp only [Nodes.chars, List.length_append, hrest]
      refine ⟨next, hbehind, hopened, hsuffix.trans (List.suffix_append data back), ?_, ?_⟩
      · omega
      · intro hlength
        obtain ⟨written, hwritten, hlt, hamp⟩ := hsame (by omega)
        refine ⟨data ++ written, ?_, ?_, ?_⟩
        · rw [List.append_assoc, ← hwritten]
        · rw [List.mem_append, not_or]
          exact ⟨hopen, hlt⟩
        · rw [List.mem_append, not_or]
          exact ⟨hvaluesame (by omega), hamp⟩
  | ignored hnodes ih =>
    rcases events_cases hes.symm with ⟨cs, middle, hrest, -, hread, rfl⟩ | ⟨_, _, hdata, -⟩
    · obtain ⟨next, hbehind, hopened, hsuffix, hle, -⟩ := ih rfl hnone
      have hshorter := (readMarkup_suffix hread).length_le
      have hleads : middle.opened = r.opened := leads_of_readMarkup hread
      simp only [hrest, List.length_cons]
      refine ⟨next, hbehind, hopened.trans hleads, ?_, by omega, ?_⟩
      · exact hsuffix.trans ((readMarkup_suffix hread).trans (List.suffix_cons '<' cs))
      · intro hlength
        omega
    · cases hdata
  | empty => cases hnone
  | element => cases hnone

theorem readMarkup_eq_closing (h : readMarkup opened cs = .ok (.closing, next)) :
    ∃ body, cs = '/' :: body ∧ readClose opened body = .ok (.closing, next) := by
  unfold readMarkup at h
  split at h
  · next body =>
    rcases hbang : readBang ('!' :: body) with e | ⟨event', left⟩
    · rw [hbang] at h
      cases h
    · have hevent := readBang_event hbang
      rw [hbang] at h
      cases h
      cases hevent
  · next body => exact ⟨body, rfl, h⟩
  · unfold readQuestion at h
    dsimp only at h
    split at h
    · cases h
    · cases h
  · unfold readOpen at h
    split at h
    · cases h
    · split at h
      · cases h
      · cases h

theorem length_closingName_le (content : List Char) :
    (closingName content).length ≤ content.length := by
  unfold closingName
  split
  · exact Nat.le_refl _
  · rw [dropEndWhile, List.length_reverse, ← @List.length_reverse _ content]
    exact (List.dropWhile_suffix _).length_le

/-- **An end tag takes three characters and those of its name.** -/
theorem length_of_closing (h : r.events .kept = .event .closing es) (hends : EndsMarkup r.rest) :
    ∃ (name : List Char) (next : Reader), r.opened = name :: next.opened ∧
      es = next.events .kept ∧ next.rest <:+ r.rest ∧
      name.length + 3 + next.rest.length ≤ r.rest.length := by
  rcases events_cases h with ⟨cs, next, hrest, hcs, hread, rfl⟩ | ⟨_, _, hdata, -⟩
  · rw [hrest] at hends ⊢
    have hsuffix := (readMarkup_suffix hread).trans (List.suffix_cons '<' cs)
    have hclosed : '>' ∈ cs := hends.mem hcs
    obtain ⟨body, rfl, hclose⟩ := readMarkup_eq_closing hread
    obtain ⟨back, hback, -⟩ := cut_append_of_mem ((List.mem_cons.mp hclosed).resolve_left (by decide)) []
    have hbody := congrArg List.length (cut_some hback)
    have hname := length_closingName_le (cut '>' body).1
    simp only [List.length_append, List.length_cons] at hbody
    unfold readClose at hclose
    dsimp only at hclose
    split at hclose
    · cases hclose
    · next name outer hopened =>
      split at hclose
      · next hsame =>
        cases hclose
        refine ⟨name, _, hopened, rfl, hsuffix, ?_⟩
        simp only [hback, Option.getD_some, List.length_cons]
        rw [hsame] at hname
        omega
      · cases hclose
  · cases hdata

/-- **What an element without children costs**: its text, and its end tag. -/
theorem Forms.length_of_closed (h : Forms es nodes (.event .closing behind))
    (hes : es = r.events .kept) (hnone : nodes.elements = []) (hends : EndsMarkup r.rest) :
    ∃ (name : List Char) (next : Reader), behind = next.events .kept ∧
      r.opened = name :: next.opened ∧ next.rest <:+ r.rest ∧
      nodes.chars.length + (name.length + 3 + next.rest.length) ≤ r.rest.length ∧
      (nodes.chars.length + (name.length + 3 + next.rest.length) = r.rest.length →
        ∃ written back, r.rest = written ++ back ∧
          back.length = name.length + 3 + next.rest.length ∧ '<' ∉ written ∧ '&' ∉ written) := by
  obtain ⟨middle, hmiddle, hsame, hsuffix, hle, hwritten⟩ := h.length_chars_le hes hnone
  obtain ⟨name, next, hopened, hbehind, hsuffix', hle'⟩ :=
    length_of_closing hmiddle.symm (hends.suffix hsuffix)
  refine ⟨name, next, hbehind, hsame ▸ hopened, hsuffix'.trans hsuffix, by omega, ?_⟩
  intro hlength
  obtain ⟨written, hrest, hlt, hamp⟩ := hwritten (by omega)
  exact ⟨written, middle.rest, hrest, by omega, hlt, hamp⟩

/-- An element is formed from its start tag up to its end tag. -/
theorem Forms.of_opening {content : List Char} (h : Forms (.event (.opening content) es) nodes rest)
    (hrest : rest.Stops) :
    ∃ inner more behind, nodes = .element (tagName content) inner more ∧
      Forms es inner (.event .closing behind) ∧ Forms behind more rest := by
  cases h with
  | none => exact hrest.elim
  | element hinner hnodes => exact ⟨_, _, _, rfl, hinner, hnodes⟩

end NetconfClient.Markup
