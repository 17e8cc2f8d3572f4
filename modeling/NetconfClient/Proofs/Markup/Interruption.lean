/-
  NetconfClient/Proofs/Markup/Interruption.lean
  =============================================
  **Character data that is interrupted.**

  A complete construct is read off whatever follows it (`IsConstruct.readMarkup_append`).
  Character data that can be read does not end inside an entity, so where it is cut
  outside entities both parts can be read, and the text of the whole is the texts of
  the parts one behind the other (`StandsFor.split`).  Without the blanks around
  them, the blanks at the cut are lost (`exists_gap`).
-/
import NetconfClient.Proofs.Markup.CharacterData
import NetconfClient.Proofs.Markup.Reading

namespace NetconfClient.Markup

open Text

variable {opened next : List (List Char)} {cs data more text rest : List Char} {event : Event}

/-! ## 1. Complete constructs -/

theorem closeAt_append {ok : List Char → Bool} {seen content : List Char}
    (h : closeAt ok seen cs = some (content, rest)) (more : List Char) :
    closeAt ok seen (cs ++ more) = some (content, rest ++ more) := by
  induction cs generalizing seen with
  | nil => cases h
  | cons c cs ih =>
    rw [closeAt] at h
    rw [List.cons_append, closeAt]
    split at h
    · next hc =>
      cases h
      rw [if_pos hc]
    · next hc => rw [if_neg hc, ih h]

theorem cut_append_of_mem {sep : Char} (h : sep ∈ cs) (more : List Char) :
    ∃ back, (cut sep cs).2 = some back ∧
      cut sep (cs ++ more) = ((cut sep cs).1, some (back ++ more)) := by
  cases hback : (cut sep cs).2 with
  | none =>
    have hnot := notMem_cut_fst sep cs
    rw [cut_none hback] at hnot
    exact absurd h hnot
  | some back =>
    refine ⟨back, rfl, ?_⟩
    conv_lhs => rw [cut_some hback, List.append_assoc, List.cons_append]
    exact cut_append_cons _ (notMem_cut_fst sep cs)

/-- A construct that is closed by a search, and then looked at, is the same in a longer text. -/
theorem closed_append {ok : List Char → Bool} {error : MarkupError}
    {finish : List Char → List Char → Except MarkupError (Event × List Char)}
    (hfinish : ∀ content back, finish content back = .ok (event, rest) →
      back = rest ∧ ∀ other, finish content other = .ok (event, other))
    (h : (match closeAt ok [] cs with
      | some (content, back) => finish content back
      | none => .error error) = .ok (event, rest)) (more : List Char) :
    (match closeAt ok [] (cs ++ more) with
      | some (content, back) => finish content back
      | none => .error error) = .ok (event, rest ++ more) := by
  split at h
  · next content back hclose =>
    obtain ⟨rfl, hother⟩ := hfinish content back h
    rw [closeAt_append hclose]
    exact hother _
  · cases h

theorem readBang_append (h : readBang cs = .ok (event, rest)) (more : List Char) :
    readBang (cs ++ more) = .ok (event, rest ++ more) := by
  unfold readBang at h ⊢
  rcases hdrop : cs.drop 1 with _ | ⟨c, back⟩
  · rw [hdrop] at h
    cases h
  · have hlonger : (cs ++ more).drop 1 = c :: (back ++ more) := by
      have hlength := congrArg List.length hdrop
      rw [List.length_drop, List.length_cons] at hlength
      rw [List.drop_append_of_le_length (by omega), hdrop, List.cons_append]
    have hfinish : ∀ (test : List Char → Bool) (error : MarkupError) (content back : List Char),
        (if test content then Except.ok (Event.ignored, back) else .error error) =
          .ok (event, rest) →
        back = rest ∧ ∀ other : List Char,
          (if test content then Except.ok (Event.ignored, other) else .error error) =
            .ok (event, other) := by
      intro test error content back hback
      split at hback
      · next htest =>
        cases hback
        exact ⟨rfl, fun _ => if_pos htest⟩
      · cases hback
    rw [hdrop] at h
    rw [hlonger]
    dsimp only at h ⊢
    split at h
    · next hc =>
      rw [if_pos hc]
      exact closed_append (hfinish _ _) h more
    · next hc =>
      rw [if_neg hc]
      split at h
      · next hc =>
        rw [if_pos hc]
        exact closed_append (hfinish _ _) h more
      · next hc =>
        rw [if_neg hc]
        split at h
        · next hc =>
          rw [if_pos hc]
          refine closed_append (fun content back hback => ?_) h more
          -- a document type has to have a name as well
          split at hback
          · next hcontent =>
            split at hback
            · cases hback
            · next hname =>
              cases hback
              exact ⟨rfl, fun _ => (if_pos hcontent).trans (if_neg hname)⟩
          · cases hback
        · cases h

theorem readQuestion_append (hclosed : '>' ∈ cs) (h : readQuestion cs = .ok (event, rest))
    (more : List Char) : readQuestion (cs ++ more) = .ok (event, rest ++ more) := by
  obtain ⟨back, hback, hcut⟩ := cut_append_of_mem hclosed more
  unfold readQuestion at h ⊢
  rw [hcut]
  dsimp only at h ⊢
  rw [hback] at h
  split at h
  · next hcontent =>
    cases h
    exact if_pos hcontent
  · cases h

theorem readClose_append (hclosed : '>' ∈ cs) (h : readClose opened cs = .ok (event, ⟨next, rest⟩))
    (more : List Char) : readClose opened (cs ++ more) = .ok (event, ⟨next, rest ++ more⟩) := by
  obtain ⟨back, hback, hcut⟩ := cut_append_of_mem hclosed more
  unfold readClose at h ⊢
  rw [hcut]
  dsimp only at h ⊢
  rw [hback] at h
  split at h
  · cases h
  · split at h
    · next hname =>
      cases h
      exact if_pos hname
    · cases h

theorem readOpen_append (h : readOpen opened cs = .ok (event, ⟨next, rest⟩)) (more : List Char) :
    readOpen opened (cs ++ more) = .ok (event, ⟨next, rest ++ more⟩) := by
  unfold readOpen at h ⊢
  split at h
  · cases h
  · next hend =>
    rw [tagEnd_append hend]
    dsimp only at h ⊢
    split at h
    · next hempty =>
      cases h
      exact if_pos hempty
    · next hfull =>
      cases h
      exact if_neg hfull

/-- **What was read of a text is read of a longer one**, if it has been closed. -/
theorem readMarkup_append (hclosed : '>' ∈ cs)
    (h : readMarkup opened cs = .ok (event, ⟨next, rest⟩)) (more : List Char) : readMarkup opened (cs ++ more) = .ok (event, ⟨next, rest ++ more⟩) := by
  unfold readMarkup at h
  split at h
  · next back =>
    rw [List.cons_append, readMarkup]
    cases hread : readBang ('!' :: back) with
    | error e =>
      rw [hread] at h
      cases h
    | ok r =>
      obtain ⟨event', rest'⟩ := r
      rw [hread] at h
      cases h
      rw [← List.cons_append, readBang_append hread]
      rfl
  · next name =>
    rw [List.cons_append, readMarkup]
    exact readClose_append ((List.mem_cons.mp hclosed).resolve_left (by decide)) h more
  · next back =>
    rw [List.cons_append, readMarkup]
    cases hread : readQuestion ('?' :: back) with
    | error e =>
      rw [hread] at h
      cases h
    | ok r =>
      obtain ⟨event', rest'⟩ := r
      rw [hread] at h
      cases h
      rw [← List.cons_append, readQuestion_append hclosed hread]
      rfl
  · next hbang hslash hquestion =>
    obtain ⟨c, back, rfl⟩ := List.exists_cons_of_ne_nil (List.ne_nil_of_mem hclosed)
    have hother : readMarkup opened (c :: back ++ more) = readOpen opened (c :: back ++ more) := by
      rw [List.cons_append]
      unfold readMarkup
      split
      · next heq => exact absurd ((List.cons.inj heq).1 ▸ rfl) (hbang back)
      · next heq => exact absurd ((List.cons.inj heq).1 ▸ rfl) (hslash back)
      · next heq => exact absurd ((List.cons.inj heq).1 ▸ rfl) (hquestion back)
      · rfl
    rw [hother]
    exact readOpen_append h more

/-- A complete construct, without the `<` that it begins with, and the names of the open
    elements behind it. -/
structure IsConstruct (opened : List (List Char)) (cs : List Char) (event : Event)
    (next : List (List Char)) : Prop where
  closed : '>' ∈ cs
  read : readMarkup opened cs = .ok (event, ⟨next, []⟩)

/-- **A complete construct is read off whatever follows it.** -/
theorem IsConstruct.events (h : IsConstruct opened cs event next) (blanks : Blanks)
    (rest : List Char) :
    Reader.events blanks ⟨opened, '<' :: (cs ++ rest)⟩ =
      .event event (Reader.events blanks ⟨next, rest⟩) := by
  refine events_markup ?_ (readMarkup_append h.closed h.read rest)
  exact List.append_ne_nil_of_left_ne_nil (List.ne_nil_of_mem h.closed) rest

theorem readBang_event (h : readBang cs = .ok (event, rest)) : event = .ignored := by
  unfold readBang at h
  split at h
  · cases h
  · repeat' split at h
    all_goals cases h
    all_goals rfl

/-- What an event makes of the names of the open elements. -/
def Event.Leads (opened next : List (List Char)) : Event → Prop
  | .opening content => next = tagName content :: opened
  | .closing => ∃ name, opened = name :: next
  | .empty _ | .ignored => next = opened
  | .text _ => False

theorem leads_of_readMarkup (h : readMarkup opened cs = .ok (event, ⟨next, rest⟩)) :
    event.Leads opened next := by
  unfold readMarkup at h
  split at h
  · next back =>
    cases hbang : readBang ('!' :: back) with
    | error e =>
      rw [hbang] at h
      cases h
    | ok r =>
      obtain ⟨event', rest'⟩ := r
      have hignored := readBang_event hbang
      rw [hbang] at h
      cases h
      subst hignored
      rfl
  · unfold readClose at h
    dsimp only at h
    split at h
    · cases h
    · next name outer =>
      split at h
      · cases h
        exact ⟨name, rfl⟩
      · cases h
  · next back =>
    rw [readQuestion] at h
    dsimp only at h
    split at h
    · cases h
      rfl
    · cases h
  · unfold readOpen at h
    split at h
    · cases h
    · split at h
      · cases h
        rfl
      · cases h
        rfl

/-! ## 2. Character data that is cut -/

/-- Whether the last entity of character data has not come to its end. -/
def EndsInEntity (data : List Char) : Prop :=
  ∃ front name, data = front ++ '&' :: name ∧ ';' ∉ name

theorem not_endsInEntity_of_notMem (h : '&' ∉ data) : ¬ EndsInEntity data := by
  rintro ⟨front, name, rfl, -⟩
  exact h (List.mem_append_right _ List.mem_cons_self)

theorem EndsInEntity.prepend (front : List Char) (h : EndsInEntity data) :
    EndsInEntity (front ++ data) := by
  obtain ⟨before, name, rfl, hname⟩ := h
  exact ⟨front ++ before, name, (List.append_assoc _ _ _).symm, hname⟩

theorem EndsInEntity.append (h : EndsInEntity data) (hmore : ';' ∉ more) :
    EndsInEntity (data ++ more) := by
  obtain ⟨front, name, rfl, hname⟩ := h
  refine ⟨front, name ++ more, by simp, ?_⟩
  intro hmem
  exact (List.mem_append.mp hmem).elim hname hmore

theorem StandsFor.append (h : StandsFor data text) {back : List Char}
    (hmore : StandsFor more back) :
    StandsFor (data ++ more) (text ++ back) := by
  induction h with
  | nil => exact hmore
  | plain hc _ ih => exact .plain hc ih
  | entity hname _ ih =>
    rw [List.cons_append, List.append_assoc, List.cons_append]
    exact .entity hname ih

theorem standsFor_self (h : '&' ∉ data) : StandsFor data data := by
  induction data with
  | nil => exact .nil
  | cons c data ih =>
    rw [List.mem_cons, not_or] at h
    exact .plain (Ne.symm h.1) (ih h.2)

/-- Character data stands for one text. -/
theorem StandsFor.unique {other : List Char} (h : StandsFor data text)
    (hother : StandsFor data other) : text = other :=
  Except.ok.inj ((unescape_eq_ok_iff.mpr h).symm.trans (unescape_eq_ok_iff.mpr hother))

/-- What can be read has come to the end of its last entity. -/
theorem StandsFor.not_endsInEntity (h : StandsFor data text) : ¬ EndsInEntity data := by
  induction h with
  | nil => exact not_endsInEntity_of_notMem List.not_mem_nil
  | plain hc _ ih =>
    rintro ⟨front, name, heq, hname⟩
    rcases front with _ | ⟨d, front⟩
    · exact hc (List.cons.inj heq).1
    · exact ih ⟨front, name, (List.cons.inj heq).2, hname⟩
  | @entity entity data text c hentity _ ih =>
    rintro ⟨front, name, heq, hname⟩
    rcases front with _ | ⟨d, front⟩
    · rw [List.nil_append, List.cons_inj_right] at heq
      exact hname (heq ▸ List.mem_append_right _ List.mem_cons_self)
    · -- the last `&` is not in the name of the entity, so it is behind its `;`
      have htail := (List.cons.inj heq).2
      rcases List.append_eq_append_iff.mp htail with ⟨back, rfl, hback⟩ | ⟨back, hback, hrest⟩
      · rcases back with _ | ⟨e, back⟩
        · exact absurd (List.cons.inj hback).1 (by decide)
        · exact ih ⟨back, name, (List.cons.inj hback).2, hname⟩
      · rcases back with _ | ⟨e, back⟩
        · exact absurd (List.cons.inj hrest).1 (by decide)
        · rw [(List.cons.inj hrest).1.symm] at hback
          exact hentity.notMem.1 (hback ▸ List.mem_append_right _ List.mem_cons_self)

/-- **Character data that is cut outside entities is read in parts.** -/
theorem StandsFor.split (h : StandsFor (data ++ more) text) (hend : ¬ EndsInEntity data) :
    ∃ front back, text = front ++ back ∧ StandsFor data front ∧ StandsFor more back := by
  generalize hwhole : data ++ more = whole at h
  induction h generalizing data with
  | nil =>
    obtain ⟨rfl, rfl⟩ := List.append_eq_nil_iff.mp hwhole
    exact ⟨[], [], rfl, .nil, .nil⟩
  | @plain c whole text hc hrest ih =>
    rcases data with _ | ⟨d, data⟩
    · rw [List.nil_append] at hwhole
      exact ⟨[], c :: text, rfl, .nil, hwhole ▸ .plain hc hrest⟩
    · obtain ⟨rfl, hdata⟩ := List.cons.inj hwhole
      obtain ⟨front, back, rfl, hfront, hback⟩ := ih (mt (EndsInEntity.prepend [d]) hend) hdata
      exact ⟨d :: front, back, rfl, .plain hc hfront, hback⟩
  | @entity name whole text c hname hrest ih =>
    rcases data with _ | ⟨d, data⟩
    · rw [List.nil_append] at hwhole
      exact ⟨[], c :: text, rfl, .nil, hwhole ▸ .entity hname hrest⟩
    · obtain ⟨rfl, hdata⟩ := List.cons.inj hwhole
      rcases List.append_eq_append_iff.mp hdata with ⟨rest, rfl, hmore⟩ | ⟨rest, rfl, hmore⟩
      · -- the cut is in front of the `;`
        exfalso
        refine hend ⟨[], data, rfl, ?_⟩
        intro hmem
        exact hname.notMem.2 (List.mem_append_left _ hmem)
      · rcases rest with _ | ⟨e, rest⟩
        · exfalso
          refine hend ⟨[], name ++ [], rfl, ?_⟩
          rw [List.append_nil]
          exact hname.notMem.2
        · obtain ⟨rfl, hrest⟩ := List.cons.inj hmore
          have hbehind : ¬ EndsInEntity rest := by
            intro hrest
            refine hend ?_
            have hlonger := hrest.prepend ('&' :: (name ++ [';']))
            simpa using hlonger
          obtain ⟨front, back, rfl, hfront, hback⟩ := ih hbehind hrest.symm
          exact ⟨c :: front, back, rfl, .entity hname hfront, hback⟩

/-! ## 3. Blanks around character data -/

theorem readable_append_iff (hend : ¬ EndsInEntity data) :
    Readable (data ++ more) ↔ Readable data ∧ Readable more := by
  constructor
  · rintro ⟨text, h⟩
    obtain ⟨front, back, -, hfront, hback⟩ := h.split hend
    exact ⟨⟨front, hfront⟩, ⟨back, hback⟩⟩
  · rintro ⟨⟨front, hfront⟩, ⟨back, hback⟩⟩
    exact ⟨front ++ back, hfront.append hback⟩

theorem notMem_of_blank {blank : List Char} (h : ∀ c ∈ blank, isMarkupBlank c) {c : Char}
    (hc : isMarkupBlank c = false) : c ∉ blank := by
  intro hmem
  rw [h c hmem] at hc
  cases hc

/-- Blanks do not continue an entity. -/
theorem EndsInEntity.of_trimWhile (h : EndsInEntity (trimWhile isMarkupBlank data)) :
    EndsInEntity data := by
  obtain ⟨front, tail, hdata, -, htail⟩ := exists_trimWhile isMarkupBlank data
  rw [hdata]
  exact (h.append (notMem_of_blank htail (by decide))).prepend front

/-- Blanks around character data do not decide whether it can be read. -/
theorem readable_trimWhile_iff : Readable (trimWhile isMarkupBlank data) ↔ Readable data := by
  obtain ⟨front, tail, hdata, hfront, htail⟩ := exists_trimWhile isMarkupBlank data
  have hself : ∀ {blank : List Char}, (∀ c ∈ blank, isMarkupBlank c) →
      ¬ EndsInEntity blank ∧ Readable blank := by
    intro blank h
    have hnot := notMem_of_blank h (show isMarkupBlank '&' = false by decide)
    exact ⟨not_endsInEntity_of_notMem hnot, blank, standsFor_self hnot⟩
  constructor
  · intro h
    obtain ⟨text, htext⟩ := h
    rw [hdata, readable_append_iff (hself hfront).1, readable_append_iff htext.not_endsInEntity]
    exact ⟨(hself hfront).2, ⟨text, htext⟩, (hself htail).2⟩
  · intro h
    have hend : ¬ EndsInEntity (trimWhile isMarkupBlank data) := by
      obtain ⟨text, htext⟩ := h
      exact mt EndsInEntity.of_trimWhile htext.not_endsInEntity
    rw [hdata, readable_append_iff (hself hfront).1, readable_append_iff hend] at h
    exact h.2.1

/-- Between two parts with characters that are no blanks, the blanks at the cut remain. -/
theorem exists_trimWhile_append (hdata : trimWhile isMarkupBlank data ≠ [])
    (hmore : trimWhile isMarkupBlank more ≠ []) :
    ∃ gap, (∀ c ∈ gap, isMarkupBlank c) ∧ trimWhile isMarkupBlank (data ++ more) =
      trimWhile isMarkupBlank data ++ (gap ++ trimWhile isMarkupBlank more) := by
  obtain ⟨front, gap, hdata', hfront, hgap⟩ := exists_trimWhile isMarkupBlank data
  obtain ⟨gap', tail, hmore', hgap', htail⟩ := exists_trimWhile isMarkupBlank more
  refine ⟨gap ++ gap', ?_, ?_⟩
  · intro c hc
    exact (List.mem_append.mp hc).elim (hgap c) (hgap' c)
  · have hwhole : data ++ more = front ++ ((trimWhile isMarkupBlank data ++
        ((gap ++ gap') ++ trimWhile isMarkupBlank more)) ++ tail) := by
      conv_lhs => rw [hdata', hmore']
      simp only [List.append_assoc]
    rw [hwhole, trimWhile_append_append hfront htail]
    refine trimWhile_eq_self ?_ ?_
    · intro c hc
      rw [List.head?_append_of_ne_nil _ hdata] at hc
      exact of_mem_head?_trimWhile hc
    · intro c hc
      rw [List.getLast?_append_of_ne_nil _ (List.append_ne_nil_of_right_ne_nil _ hmore),
        List.getLast?_append_of_ne_nil _ hmore] at hc
      exact of_mem_getLast?_trimWhile hc

/-- **Two parts are read without the blanks at the cut.** -/
theorem exists_gap (h : StandsFor (trimWhile isMarkupBlank (data ++ more)) text)
    (hend : ¬ EndsInEntity data) (hdata : trimWhile isMarkupBlank data ≠ [])
    (hmore : trimWhile isMarkupBlank more ≠ []) :
    ∃ front gap back, text = front ++ (gap ++ back) ∧ (∀ c ∈ gap, isMarkupBlank c) ∧
      StandsFor (trimWhile isMarkupBlank data) front ∧
      StandsFor (trimWhile isMarkupBlank more) back := by
  obtain ⟨gap, hgap, hwhole⟩ := exists_trimWhile_append hdata hmore
  have hnot : '&' ∉ gap := notMem_of_blank hgap (by decide)
  rw [hwhole] at h
  obtain ⟨front, behind, rfl, hfront, hbehind⟩ := h.split (mt EndsInEntity.of_trimWhile hend)
  obtain ⟨gap', back, rfl, hgap', hback⟩ := hbehind.split (not_endsInEntity_of_notMem hnot)
  obtain rfl : gap' = gap := hgap'.unique (standsFor_self hnot)
  exact ⟨front, gap', back, rfl, hgap, hfront, hback⟩

end NetconfClient.Markup
