/-
  NetconfClient/Proofs/Message/Comments.lean
  ==========================================
  **What a comment does to a greeting.**

  A comment is passed over, but it cuts the character data that it stands in.  Where
  character data is not heard, or where one of the parts is blank, that makes no
  difference.  Inside a capability the parts are two capabilities; inside the session
  identifier each part is read as one, and the last counts (`comment_in_greeting`).

  A place in a greeting is what stands in front of it: character data and complete
  constructs in turn (`Reaches`).  What comes before it leads to what has been read
  there (`follow_reaches`), and what comes behind it adds the same whatever that is
  (`follow_having`), so all that counts is how the cut character data is taken.
-/
import Mathlib
import NetconfClient.Proofs.Markup.Interruption
import NetconfClient.Proofs.Message.Extraction

namespace NetconfClient.Greeting

open Text Markup

variable {p q r : Progress} {opened inner : List (List Char)} {front data more rest : List Char}
  {path : Option (List (List Char))}

/-! ## 1. Character data between two constructs -/

/-- Takes what stands between two constructs; blanks alone are nothing. -/
def Progress.between (p : Progress) (data : List Char) : Except Refusal Progress :=
  if ∀ c ∈ data, isMarkupBlank c then .ok p else p.text (trimWhile isMarkupBlank data)

theorem between_of_blank (h : ∀ c ∈ data, isMarkupBlank c) : p.between data = .ok p := if_pos h

theorem between_of_not_blank (h : ¬ ∀ c ∈ data, isMarkupBlank c) :
    p.between data = p.text (trimWhile isMarkupBlank data) := if_neg h

theorem follow_between (hdata : '<' ∉ data) (p : Progress) (rest : List Char) :
    p.follow (Reader.events .trimmed ⟨opened, data ++ '<' :: rest⟩) =
      p.between data >>= (·.follow (Reader.events .trimmed ⟨opened, '<' :: rest⟩)) := by
  by_cases hblank : ∀ c ∈ data, isMarkupBlank c
  · rw [between_of_blank hblank, events_blanks hblank]
    rfl
  · rw [between_of_not_blank hblank, events_text hdata (mt trimWhile_eq_nil_iff.mp hblank),
      Progress.follow, Progress.take]
    · cases p.text (trimWhile isMarkupBlank data) <;> rfl
    · intro h
      cases h

/-- A text that ends in character data is no greeting. -/
theorem follow_to_end (hdata : '<' ∉ data) (p : Progress) (opened : List (List Char)) :
    ∃ refusal, p.follow (Reader.events .trimmed ⟨opened, data⟩) = .error refusal := by
  have hend : Reader.events .trimmed ⟨opened, []⟩ = .finished := by
    rw [events_eq]
    rfl
  rw [← List.append_nil data]
  by_cases hskip : Blanks.trimmed.skip data = []
  · rw [events_blanks (List.dropWhile_eq_nil_iff.mp hskip), hend]
    exact ⟨_, rfl⟩
  · rw [events_charData_append hdata hskip (by simp), hend]
    generalize Blanks.trimmed.cutEnd (Blanks.trimmed.skip data) = text
    rcases htext : p.text text with refusal | q
    · exact ⟨refusal, follow_refused (.text text) (by simp) htext _⟩
    · exact ⟨_, follow_event (.text text) (by simp) htext _⟩

theorem text_eq_ok_of_quiet (h : Quiet p.path) : p.text data = .ok q ↔ q = p ∧ Readable data := by
  rw [Progress.text]
  cases hread : unescape data with
  | error e =>
    have hnot : ¬ Readable data := by
      rintro ⟨text, htext⟩
      rw [unescape_eq_ok_iff.mpr htext] at hread
      cases hread
    simp [hnot]
  | ok text =>
    dsimp only
    rw [if_neg h.1, if_neg h.2, Except.ok.injEq, and_iff_left ⟨text, unescape_eq_ok_iff.mp hread⟩]
    exact eq_comm

theorem readable_of_blank (h : ∀ c ∈ data, isMarkupBlank c) : Readable data :=
  ⟨data, standsFor_self (notMem_of_blank h (by decide))⟩

/-- Where it is not heard, character data only has to be readable. -/
theorem between_eq_ok_of_quiet (h : Quiet p.path) :
    p.between data = .ok q ↔ q = p ∧ Readable data := by
  by_cases hblank : ∀ c ∈ data, isMarkupBlank c
  · rw [between_of_blank hblank, and_iff_left (readable_of_blank hblank), Except.ok.injEq]
    exact eq_comm
  · rw [between_of_not_blank hblank, text_eq_ok_of_quiet h, readable_trimWhile_iff]

/-! ## 2. Character data that a comment cuts -/

theorem ok_bind {α β : Type} (a : α) (f : α → Except Refusal β) : (Except.ok a >>= f) = f a := rfl

theorem bind_eq_ok_iff {α β : Type} {x : Except Refusal α} {f : α → Except Refusal β} {b : β} :
    (x >>= f) = .ok b ↔ ∃ a, x = .ok a ∧ f a = .ok b := by
  cases x with
  | error refusal => exact ⟨nofun, nofun⟩
  | ok a =>
    constructor
    · intro h
      exact ⟨a, rfl, h⟩
    · rintro ⟨a', ⟨⟩, h⟩
      exact h

/-- **A cut is not noticed** where nothing is heard, and next to blanks. -/
theorem between_cut (hend : ¬ EndsInEntity data)
    (hplace : Quiet p.path ∨ (∀ c ∈ data, isMarkupBlank c) ∨ ∀ c ∈ more, isMarkupBlank c)
    (h : p.between (data ++ more) = .ok q) :
    (p.between data >>= (·.between more)) = .ok q := by
  have hfront : (∀ c ∈ data, isMarkupBlank c) → p.between (data ++ more) = p.between more := by
    intro hblank
    have htrim : trimWhile isMarkupBlank (data ++ more) = trimWhile isMarkupBlank more := by
      have hwhole := trimWhile_append_append hblank (List.forall_mem_nil _) more
      rwa [List.append_nil] at hwhole
    simp only [Progress.between, List.forall_mem_append, htrim, and_iff_right hblank]
  have hback : (∀ c ∈ more, isMarkupBlank c) → p.between (data ++ more) = p.between data := by
    intro hblank
    have htrim : trimWhile isMarkupBlank (data ++ more) = trimWhile isMarkupBlank data :=
      trimWhile_append_append (List.forall_mem_nil _) hblank data
    simp only [Progress.between, List.forall_mem_append, htrim, and_iff_left hblank]
  rcases hplace with hquiet | hblank | hblank
  · obtain ⟨rfl, hread⟩ := (between_eq_ok_of_quiet hquiet).mp h
    obtain ⟨hdata, hmore⟩ := (readable_append_iff hend).mp hread
    rw [(between_eq_ok_of_quiet hquiet).mpr ⟨rfl, hdata⟩, ok_bind]
    exact (between_eq_ok_of_quiet hquiet).mpr ⟨rfl, hmore⟩
  · rw [between_of_blank hblank, ok_bind, ← hfront hblank]
    exact h
  · rw [← hback hblank, h, ok_bind]
    exact between_of_blank hblank

/-- The text that character data is taken for. -/
def Taken (data text : List Char) : Prop := StandsFor (trimWhile isMarkupBlank data) text

/-- The texts of the two parts of cut character data, and the blanks between them. -/
structure CutTexts (data more one gap two : List Char) : Prop where
  whole : Taken (data ++ more) (one ++ (gap ++ two))
  first : Taken data one
  last : Taken more two
  blank : ∀ c ∈ gap, isMarkupBlank c

theorem taken_of_between (hblank : ¬ ∀ c ∈ data, isMarkupBlank c) (h : p.between data = .ok q) :
    ∃ text, Taken data text := by
  rw [between_of_not_blank hblank, Progress.text] at h
  cases hread : unescape (trimWhile isMarkupBlank data) with
  | error e =>
    rw [hread] at h
    cases h
  | ok text => exact ⟨text, unescape_eq_ok_iff.mp hread⟩

variable {text : List Char}

theorem between_capability (hpath : p.path = capabilityPath)
    (hblank : ¬ ∀ c ∈ data, isMarkupBlank c) (h : Taken data text) :
    p.between data = .ok { p with texts := text :: p.texts } := by
  rw [between_of_not_blank hblank, Progress.text, unescape_eq_ok_iff.mpr h]
  exact if_pos hpath

theorem between_sessionId (hpath : p.path = sessionIdPath)
    (hblank : ¬ ∀ c ∈ data, isMarkupBlank c) (h : Taken data text) :
    (∀ id, readId text = some id → p.between data = .ok { p with sessionId := some id }) ∧
      (readId text = none → ∃ refusal, p.between data = .error refusal) := by
  rw [between_of_not_blank hblank, Progress.text, unescape_eq_ok_iff.mpr h, readId]
  dsimp only
  rw [if_neg (hpath ▸ by decide), if_pos hpath]
  cases Unsigned.parse Unsigned.max64 (trim text) with
  | ok id =>
    refine ⟨?_, fun h => by cases h⟩
    rintro id' ⟨⟩
    rfl
  | error cause => exact ⟨fun _ h => (by cases h), fun _ => ⟨_, rfl⟩⟩

theorem path_between (h : p.between data = .ok q) : q.path = p.path := by
  unfold Progress.between at h
  split at h
  · cases h
    rfl
  · unfold Progress.text at h
    split at h
    · cases h
    · split at h
      · cases h
        rfl
      · split at h
        · split at h
          · cases h
            rfl
          · cases h
        · cases h
          rfl

/-! ## 3. Places -/

/-- What stands in front of a place, and the path of the elements that are open there; behind
    the end of the outermost element there is none. -/
inductive Reaches : List (List Char) → List Char → Option (List (List Char)) → Prop
  | here (opened : List (List Char)) : Reaches opened [] (some (opened.map localName))
  | behind {opened : List (List Char)} {data cs : List Char} (hdata : '<' ∉ data)
      (h : IsConstruct opened cs .closing []) (after : List Char) :
      Reaches opened (data ++ '<' :: (cs ++ after)) none
  | next {opened next : List (List Char)} {data cs front : List Char} {event : Event}
      {path : Option (List (List Char))} (hdata : '<' ∉ data)
      (h : IsConstruct opened cs event next) (hopen : event = .closing → next ≠ [])
      (rest : Reaches next front path) : Reaches opened (data ++ '<' :: (cs ++ front)) path

/-- A place in the character data of a text, outside entities: what stands in front of the
    character data, both parts of it, and what follows it. -/
structure Place where
  front : List Char
  path : Option (List (List Char))
  reaches : Reaches [] front path
  data : List Char
  more : List Char
  rest : List Char
  data_free : '<' ∉ data
  more_free : '<' ∉ more
  rest_markup : ∀ c ∈ rest.head?, c = '<'
  outside : ¬ EndsInEntity data

namespace Place

variable (place : Place)

/-- The text that a place lies in. -/
def message : String :=
  String.ofList (place.front ++ (place.data ++ (place.more ++ place.rest)))

/-- The text with a comment, or another construct that says nothing, put into that place. -/
def commented (comment : Aside) : String :=
  String.ofList
    (place.front ++ (place.data ++ '<' :: (comment.markup ++ (place.more ++ place.rest))))

/-- Nothing is heard at the place, or one of the parts is blank. -/
def Unheard : Prop :=
  (∀ names ∈ place.path, Quiet names) ∨ (∀ c ∈ place.data, isMarkupBlank c) ∨
    ∀ c ∈ place.more, isMarkupBlank c

/-- The place lies inside elements of that path, and neither part is blank. -/
structure Splits (names : List (List Char)) : Prop where
  path : place.path = some names
  first : ¬ ∀ c ∈ place.data, isMarkupBlank c
  last : ¬ ∀ c ∈ place.more, isMarkupBlank c

theorem notMem_data_append : '<' ∉ place.data ++ place.more := by
  rw [List.mem_append, not_or]
  exact ⟨place.data_free, place.more_free⟩

end Place

theorem path_take {event : Event} {next : List (List Char)} (hpath : p.path = opened.map localName)
    (hnext : event.Leads opened next) (hevent : event ≠ .closing) (h : p.take event = .ok q) :
    q.path = next.map localName := by
  cases event with
  | closing => exact absurd rfl hevent
  | text data => exact hnext.elim
  | ignored =>
    cases h
    rw [show next = opened from hnext, hpath]
  | empty content =>
    simp only [Progress.take, Progress.empty] at h
    split at h
    · cases h
    · cases h
      rw [show next = opened from hnext, ← hpath]
  | opening content =>
    simp only [Progress.take, Progress.opening] at h
    split at h
    · cases h
    · cases h
      rw [show next = tagName content :: opened from hnext, List.map_cons, ← hpath]

/-- A construct is refused, or followed to what is open behind it. -/
theorem follow_construct {cs : List Char} {event : Event} {next : List (List Char)}
    (h : IsConstruct opened cs event next) (hopen : event = .closing → next ≠ [])
    (hpath : p.path = opened.map localName) :
    (∃ refusal, ∀ rest,
      p.follow (Reader.events .trimmed ⟨opened, '<' :: (cs ++ rest)⟩) = .error refusal) ∨
    ∃ q : Progress, q.path = next.map localName ∧ ∀ rest,
      p.follow (Reader.events .trimmed ⟨opened, '<' :: (cs ++ rest)⟩) =
        q.follow (Reader.events .trimmed ⟨next, rest⟩) := by
  have hleads := leads_of_readMarkup h.read
  by_cases hevent : event = .closing
  · subst hevent
    obtain ⟨name, rfl⟩ := hleads
    have htail : p.path.tail = next.map localName := by rw [hpath]; rfl
    refine .inr ⟨{ p with path := p.path.tail }, htail, ?_⟩
    intro rest
    rw [h.events]
    refine follow_end ?_
    rw [htail]
    exact mt List.map_eq_nil_iff.mp (hopen rfl)
  · cases htake : p.take event with
    | error refusal =>
      refine .inl ⟨refusal, ?_⟩
      intro rest
      rw [h.events, Progress.follow, htake]
      exact hevent
    | ok q =>
      refine .inr ⟨q, path_take hpath hleads hevent htake, ?_⟩
      intro rest
      rw [h.events]
      exact follow_event event hevent htake _

/-- **What is in front of a place leads to what has been read there**, unless it is refused, or
    the place is behind the greeting. -/
theorem follow_reaches (hfront : Reaches opened front path)
    (hpath : p.path = opened.map localName) :
    (∃ result, (path = none ∨ ∃ refusal, result = .error refusal) ∧ ∀ rest,
      p.follow (Reader.events .trimmed ⟨opened, front ++ rest⟩) = result) ∨
    ∃ (q : Progress) (inner : List (List Char)), path = some q.path ∧ ∀ rest,
      p.follow (Reader.events .trimmed ⟨opened, front ++ rest⟩) =
        q.follow (Reader.events .trimmed ⟨inner, rest⟩) := by
  induction hfront generalizing p with
  | here opened => exact .inr ⟨p, opened, by rw [hpath], fun rest => rfl⟩
  | @behind opened data cs hdata h after =>
    left
    obtain ⟨name, rfl⟩ := leads_of_readMarkup h.read
    cases hbetween : p.between data with
    | error refusal =>
      refine ⟨.error refusal, .inr ⟨refusal, rfl⟩, ?_⟩
      intro rest
      rw [List.append_assoc, List.cons_append, follow_between hdata, hbetween]
      rfl
    | ok q =>
      refine ⟨.ok { q with path := [] }, .inl rfl, ?_⟩
      intro rest
      rw [List.append_assoc, List.cons_append, follow_between hdata, hbetween, List.append_assoc]
      refine (congrArg q.follow (h.events _ _)).trans ?_
      rw [Progress.follow, path_between hbetween, hpath]
      rfl
  | @next opened next data cs front event path hdata h hopen _ ih =>
    have hshape : ∀ rest, (data ++ '<' :: (cs ++ front)) ++ rest =
        data ++ '<' :: (cs ++ (front ++ rest)) := by simp
    cases hbetween : p.between data with
    | error refusal =>
      refine .inl ⟨.error refusal, .inr ⟨refusal, rfl⟩, ?_⟩
      intro rest
      rw [hshape, follow_between hdata, hbetween]
      rfl
    | ok p' =>
      have hbehind : ∀ rest, p.follow (Reader.events .trimmed
          ⟨opened, (data ++ '<' :: (cs ++ front)) ++ rest⟩) =
            p'.follow (Reader.events .trimmed ⟨opened, '<' :: (cs ++ (front ++ rest))⟩) := by
        intro rest
        rw [hshape, follow_between hdata, hbetween]
        rfl
      rcases follow_construct h hopen ((path_between hbetween).trans hpath) with
        ⟨refusal, hrefused⟩ | ⟨q, hq, hfollow⟩
      · refine .inl ⟨.error refusal, .inr ⟨refusal, rfl⟩, ?_⟩
        intro rest
        exact (hbehind rest).trans (hrefused _)
      · rcases ih hq with ⟨result, hresult, hsettled⟩ | ⟨r, inner, hinner, hleads⟩
        · refine .inl ⟨result, hresult, ?_⟩
          intro rest
          rw [hbehind, hfollow, hsettled]
        · refine .inr ⟨r, inner, hinner, ?_⟩
          intro rest
          rw [hbehind, hfollow, hleads]

/-! ## 4. What comes behind a place -/

/-- Progress with other texts and another session identifier. -/
def Progress.having (p : Progress) (sessionId : Option Nat) (texts : List (List Char)) : Progress :=
  { p with sessionId := sessionId, texts := texts }

theorem text_having (h : p.text data = .ok q) :
    ∃ (id? : Option Nat) (added : List (List Char)), ∀ sessionId texts,
      (p.having sessionId texts).text data = .ok (q.having (id?.or sessionId) (added ++ texts)) := by
  cases hread : unescape data with
  | error e =>
    rw [Progress.text, hread] at h
    cases h
  | ok text =>
    rw [Progress.text, hread] at h
    dsimp only at h
    simp only [Progress.text, hread]
    by_cases hcapability : p.path = capabilityPath
    · rw [if_pos hcapability] at h
      cases h
      exact ⟨none, [text], fun _ _ => if_pos hcapability⟩
    by_cases hsessionId : p.path = sessionIdPath
    · rw [if_neg hcapability, if_pos hsessionId] at h
      cases hid : Unsigned.parse Unsigned.max64 (trim text) with
      | error cause =>
        rw [hid] at h
        cases h
      | ok id =>
        rw [hid] at h
        cases h
        exact ⟨some id, [], fun _ _ => (if_neg hcapability).trans (if_pos hsessionId)⟩
    · rw [if_neg hcapability, if_neg hsessionId] at h
      cases h
      exact ⟨none, [], fun _ _ => (if_neg hcapability).trans (if_neg hsessionId)⟩

theorem take_having {event : Event} (hevent : event ≠ .closing) (h : p.take event = .ok q) :
    ∃ (id? : Option Nat) (added : List (List Char)), ∀ sessionId texts,
      (p.having sessionId texts).take event =
        .ok (q.having (id?.or sessionId) (added ++ texts)) := by
  cases event with
  | closing => exact absurd rfl hevent
  | ignored =>
    cases h
    exact ⟨none, [], fun _ _ => rfl⟩
  | opening content =>
    refine ⟨none, [], fun _ _ => ?_⟩
    simp only [Progress.take, Progress.opening, Progress.having] at h ⊢
    split at h
    · cases h
    · next hroot =>
      cases h
      exact if_neg hroot
  | empty content =>
    refine ⟨none, [], fun _ _ => ?_⟩
    simp only [Progress.take, Progress.empty, Progress.having] at h ⊢
    split at h
    · cases h
    · next hroot =>
      cases h
      exact if_neg hroot
  | text data => exact text_having h

/-- **What comes behind adds the same**, whatever was heard in front of it: texts, and a
    session identifier if there is another one. -/
theorem follow_having {es : Events} (h : p.follow es = .ok r) :
    ∃ (id? : Option Nat) (added : List (List Char)), ∀ sessionId texts,
      (p.having sessionId texts).follow es =
        .ok (r.having (id?.or sessionId) (added ++ texts)) := by
  induction es generalizing p with
  | finished => cases h
  | failed e => cases h
  | event event es ih =>
    by_cases hevent : event = .closing
    · subst hevent
      rw [Progress.follow] at h
      split at h
      · next htail =>
        cases h
        refine ⟨none, [], fun sessionId texts => ?_⟩
        rw [Progress.follow]
        exact if_pos htail
      · next htail =>
        obtain ⟨id?, added, hrest⟩ := ih h
        refine ⟨id?, added, fun sessionId texts => ?_⟩
        rw [Progress.follow]
        exact (if_neg htail).trans (hrest sessionId texts)
    · cases htake : p.take event with
      | error refusal =>
        rw [Progress.follow, htake] at h
        · cases h
        · exact hevent
      | ok q =>
        rw [follow_event event hevent htake] at h
        obtain ⟨id?, added, hrest⟩ := ih h
        obtain ⟨first?, first, hfirst⟩ := take_having hevent htake
        refine ⟨id?.or first?, added ++ first, fun sessionId texts => ?_⟩
        rw [follow_event event hevent (hfirst sessionId texts), hrest, Option.or_assoc,
          List.append_assoc]

/-- The greeting that comes of what was heard, and of what comes behind. -/
theorem exists_added {es : Events} {greeting : Greeting} (h : p.follow es = .ok r)
    (hgreeting : ofProgress r = .ok greeting) :
    ∃ (id? : Option Nat) (added : List (List Char)), ∀ sessionId texts, ∃ s,
      (p.having sessionId texts).follow es = .ok s ∧
        ofProgress s = .ok ⟨id?.or sessionId, insertReadable .empty (added ++ texts).reverse⟩ := by
  obtain ⟨id?, added, hbehind⟩ := follow_having h
  have hlists : r.hasCapabilities = true := by
    unfold ofProgress at hgreeting
    split at hgreeting
    · next hlists => exact hlists
    · cases hgreeting
  exact ⟨id?, added, fun sessionId texts => ⟨_, hbehind sessionId texts, if_pos hlists⟩⟩

/-! ## 5. Greetings with comments -/

/-- **A byte order mark is character data in front of the greeting**, so it makes no difference
    whether it is skipped. -/
theorem follow_byteOrderMark (cs : List Char) :
    Progress.start.follow (Reader.events .trimmed ⟨[], byteOrderMark :: cs⟩) = .ok r ↔
      Progress.start.follow (Reader.events .trimmed ⟨[], cs⟩) = .ok r := by
  obtain ⟨data, rest, rfl, hdata, hrest⟩ := exists_charData cs
  have hmarked : '<' ∉ byteOrderMark :: data := by
    rw [List.mem_cons, not_or]
    exact ⟨by decide, hdata⟩
  rcases rest with _ | ⟨c, rest⟩
  · rw [List.append_nil]
    obtain ⟨refusal, hrefused⟩ := follow_to_end hdata .start []
    obtain ⟨refusal', hrefused'⟩ := follow_to_end hmarked .start []
    rw [hrefused, hrefused']
    exact ⟨nofun, nofun⟩
  · obtain rfl : c = '<' := hrest c rfl
    have hquiet : Quiet Progress.start.path := by decide
    have hread : Readable (byteOrderMark :: data) ↔ Readable data := by
      have hmark : '&' ∉ [byteOrderMark] := by decide
      rw [← List.singleton_append, readable_append_iff (not_endsInEntity_of_notMem hmark)]
      exact and_iff_right ⟨_, standsFor_self hmark⟩
    rw [follow_between hdata, ← List.cons_append, follow_between hmarked, bind_eq_ok_iff,
      bind_eq_ok_iff]
    simp only [between_eq_ok_of_quiet hquiet, hread]

theorem parse_eq_ok_iff_follow {message : String} {greeting : Greeting} :
    parse message = .ok greeting ↔
      ∃ r, Progress.start.follow (events .trimmed message.toList) = .ok r ∧
        ofProgress r = .ok greeting := by
  rw [parse, ofEvents]
  cases Progress.start.follow (events .trimmed message.toList) with
  | error refusal =>
    constructor
    · intro h
      cases h
    · rintro ⟨r, h, -⟩
      cases h
  | ok r =>
    dsimp only
    constructor
    · intro h
      refine ⟨r, rfl, ?_⟩
      cases hr : ofProgress r with
      | error refusal =>
        rw [hr] at h
        cases h
      | ok greeting' =>
        rw [hr] at h
        cases h
        rfl
    · rintro ⟨r', ⟨⟩, hr⟩
      rw [hr]

/-- A greeting is read alike with a byte order mark and without one. -/
theorem parse_eq_ok_iff {message : String} {greeting : Greeting} :
    parse message = .ok greeting ↔
      ∃ r, Progress.start.follow (Reader.events .trimmed ⟨[], message.toList⟩) = .ok r ∧
        ofProgress r = .ok greeting := by
  rw [parse_eq_ok_iff_follow]
  rcases message.toList with _ | ⟨c, cs⟩
  · rfl
  · rw [events]
    split
    · next hmark =>
      subst hmark
      simp only [follow_byteOrderMark]
    · rfl

/-- **A comment cuts the character data** that it stands in, and does nothing else. -/
theorem follow_commented (hdata : '<' ∉ data) (hmore : '<' ∉ more) (comment : Aside)
    (back : List Char) :
    p.follow (Reader.events .trimmed
        ⟨opened, data ++ '<' :: (comment.markup ++ (more ++ '<' :: back))⟩) =
      (p.between data >>= (·.between more)) >>=
        (·.follow (Reader.events .trimmed ⟨opened, '<' :: back⟩)) := by
  have hbehind : ∀ q : Progress, q.follow (Reader.events .trimmed
      ⟨opened, '<' :: (comment.markup ++ (more ++ '<' :: back))⟩) =
        q.between more >>= (·.follow (Reader.events .trimmed ⟨opened, '<' :: back⟩)) := by
    intro q
    rw [events_aside, follow_ignored, follow_between hmore]
  rw [follow_between hdata, bind_assoc]
  exact congrArg (p.between data >>= ·) (funext hbehind)

variable {place : Place} {greeting : Greeting}

/-- What has been read at a place of a greeting, how the character data there is taken, and
    that a comment there changes nothing else. -/
theorem exists_place (h : parse place.message = .ok greeting) {names : List (List Char)}
    (hpath : place.path = some names) :
    ∃ (p q r : Progress) (es : Events), p.path = names ∧
      p.between (place.data ++ place.more) = .ok q ∧ q.follow es = .ok r ∧
      ofProgress r = .ok greeting ∧
      ∀ comment,
        Progress.start.follow (Reader.events .trimmed ⟨[], (place.commented comment).toList⟩) =
          (p.between place.data >>= (·.between place.more)) >>= (·.follow es) := by
  obtain ⟨r, hfollow, hgreeting⟩ := parse_eq_ok_iff.mp h
  rw [Place.message, String.toList_ofList] at hfollow
  rcases follow_reaches (p := .start) place.reaches rfl with
    ⟨result, hnone | ⟨refusal, rfl⟩, hsettled⟩ | ⟨p, inner, hp, hleads⟩
  · rw [hpath] at hnone
    cases hnone
  · rw [hsettled] at hfollow
    cases hfollow
  · rw [hleads, ← List.append_assoc] at hfollow
    rcases hrest : place.rest with _ | ⟨c, back⟩
    · obtain ⟨refusal, hrefused⟩ := follow_to_end place.notMem_data_append p inner
      rw [hrest, List.append_nil, hrefused] at hfollow
      cases hfollow
    · obtain rfl : c = '<' := place.rest_markup c (by rw [hrest]; rfl)
      rw [hrest, follow_between place.notMem_data_append] at hfollow
      obtain ⟨q, hq, hr⟩ := bind_eq_ok_iff.mp hfollow
      refine ⟨p, q, r, _, Option.some.inj (hp.symm.trans hpath), hq, hr, hgreeting, ?_⟩
      intro comment
      rw [Place.commented, String.toList_ofList, hleads, hrest,
        follow_commented place.data_free place.more_free]

/-- **A comment is not noticed** where nothing is heard, and next to blanks. -/
theorem parse_commented_unheard (h : parse place.message = .ok greeting) (hunheard : place.Unheard)
    (comment : Aside) : parse (place.commented comment) = .ok greeting := by
  cases hpath : place.path with
  | none =>
    obtain ⟨r, hfollow, hgreeting⟩ := parse_eq_ok_iff.mp h
    rcases follow_reaches (p := .start) place.reaches rfl with
      ⟨result, -, hsettled⟩ | ⟨p, inner, hp, -⟩
    · refine parse_eq_ok_iff.mpr ⟨r, ?_, hgreeting⟩
      rw [Place.message, String.toList_ofList, hsettled] at hfollow
      rw [Place.commented, String.toList_ofList, hsettled, hfollow]
    · rw [hpath] at hp
      cases hp
  | some names =>
    obtain ⟨p, q, r, es, hp, hq, hr, hgreeting, hcommented⟩ := exists_place h hpath
    have hplace : Quiet p.path ∨ (∀ c ∈ place.data, isMarkupBlank c) ∨
        ∀ c ∈ place.more, isMarkupBlank c := by
      rw [hp]
      exact hunheard.imp_left fun hquiet => hquiet names hpath
    refine parse_eq_ok_iff.mpr ⟨r, ?_, hgreeting⟩
    rw [hcommented, between_cut place.outside hplace hq]
    exact hr

theorem not_blank_append (hdata : ¬ ∀ c ∈ data, isMarkupBlank c) :
    ¬ ∀ c ∈ data ++ more, isMarkupBlank c := by
  rw [List.forall_mem_append]
  exact fun hall => hdata hall.1

theorem exists_cutTexts {names : List (List Char)} (hsplits : place.Splits names)
    (h : p.between (place.data ++ place.more) = .ok q) :
    ∃ one gap two, CutTexts place.data place.more one gap two := by
  obtain ⟨text, htext⟩ := taken_of_between (not_blank_append hsplits.first) h
  obtain ⟨one, gap, two, rfl, hgap, hone, htwo⟩ := exists_gap htext place.outside
    (mt trimWhile_eq_nil_iff.mp hsplits.first) (mt trimWhile_eq_nil_iff.mp hsplits.last)
  exact ⟨one, gap, two, htext, hone, htwo, hgap⟩

/-- **A comment makes two capabilities of one.** -/
theorem parse_commented_capability (h : parse place.message = .ok greeting)
    (hsplits : place.Splits capabilityPath) (comment : Aside) :
    ∃ one gap two before behind, CutTexts place.data place.more one gap two ∧
      greeting.capabilities =
        insertReadable .empty (before ++ (one ++ (gap ++ two)) :: behind) ∧
      parse (place.commented comment) =
        .ok ⟨greeting.sessionId, insertReadable .empty (before ++ one :: two :: behind)⟩ := by
  obtain ⟨p, q, r, es, hpath, hq, hr, hgreeting, hcommented⟩ := exists_place h hsplits.path
  obtain ⟨one, gap, two, htexts⟩ := exists_cutTexts hsplits hq
  have hwhole := hq
  rw [between_capability hpath (not_blank_append hsplits.first) htexts.whole] at hwhole
  cases hwhole
  have hparts : (p.between place.data >>= (·.between place.more)) =
      .ok (p.having p.sessionId (two :: one :: p.texts)) := by
    rw [between_capability hpath hsplits.first htexts.first, ok_bind]
    exact between_capability hpath hsplits.last htexts.last
  obtain ⟨id?, added, hbehind⟩ := exists_added hr hgreeting
  obtain ⟨s, hs, hsame⟩ := hbehind p.sessionId ((one ++ (gap ++ two)) :: p.texts)
  obtain ⟨s', hs', hother⟩ := hbehind p.sessionId (two :: one :: p.texts)
  obtain rfl : r = s := Except.ok.inj (hr.symm.trans hs)
  obtain rfl := Except.ok.inj (hgreeting.symm.trans hsame)
  refine ⟨one, gap, two, p.texts.reverse, added.reverse, htexts, by simp, ?_⟩
  have hread : parse (place.commented comment) = .ok _ :=
    parse_eq_ok_iff.mpr ⟨s', by rw [hcommented, hparts]; exact hs', hother⟩
  rw [hread]
  simp

theorem refused_of_follow {message : String} {refusal : Refusal}
    (h : Progress.start.follow (Reader.events .trimmed ⟨[], message.toList⟩) = .error refusal) :
    ∃ fault, parse message = .error fault := by
  cases hparse : parse message with
  | error fault => exact ⟨fault, rfl⟩
  | ok greeting =>
    obtain ⟨r, hr, -⟩ := parse_eq_ok_iff.mp hparse
    rw [h] at hr
    cases hr

/-- How the two parts of a session identifier are taken. -/
theorem between_sessionIds (hpath : p.path = sessionIdPath) {one gap two : List Char}
    (hsplits : place.Splits sessionIdPath) (htexts : CutTexts place.data place.more one gap two) :
    (readId one = none ∨ readId two = none → ∃ refusal,
      (p.between place.data >>= (·.between place.more)) = .error refusal) ∧
    (∀ id id', readId one = some id → readId two = some id' →
      (p.between place.data >>= (·.between place.more)) = .ok (p.having (some id') p.texts)) := by
  obtain ⟨hone, honeRefused⟩ := between_sessionId hpath hsplits.first htexts.first
  have htwo : ∀ id,
      (∀ id', readId two = some id' →
        (p.having (some id) p.texts).between place.more = .ok (p.having (some id') p.texts)) ∧
      (readId two = none → ∃ refusal,
        (p.having (some id) p.texts).between place.more = .error refusal) :=
    fun id => between_sessionId (p := p.having (some id) p.texts) hpath hsplits.last htexts.last
  constructor
  · intro hnone
    cases hid : readId one with
    | none =>
      obtain ⟨refusal, hrefusal⟩ := honeRefused hid
      exact ⟨refusal, by rw [hrefusal]; rfl⟩
    | some id =>
      rw [hone id hid, ok_bind]
      exact (htwo id).2 (hnone.resolve_left (by simp [hid]))
  · intro id id' hid hid'
    rw [hone id hid, ok_bind]
    exact (htwo id).1 id' hid'

/-- **A comment makes two session identifiers of one**, and the last of them counts, unless
    there is another one behind them. -/
theorem parse_commented_sessionId (h : parse place.message = .ok greeting)
    (hsplits : place.Splits sessionIdPath) (comment : Aside) :
    ∃ one gap two, CutTexts place.data place.more one gap two ∧
      (readId one = none ∨ readId two = none →
        ∃ fault, parse (place.commented comment) = .error fault) ∧
      (readId one ≠ none → readId two ≠ none →
        parse (place.commented comment) = .ok greeting ∨
          greeting.sessionId = readId (one ++ (gap ++ two)) ∧
            parse (place.commented comment) =
              .ok { greeting with sessionId := readId two }) := by
  obtain ⟨p, q, r, es, hpath, hq, hr, hgreeting, hcommented⟩ := exists_place h hsplits.path
  obtain ⟨one, gap, two, htexts⟩ := exists_cutTexts hsplits hq
  obtain ⟨hrefused, htaken⟩ := between_sessionIds hpath hsplits htexts
  refine ⟨one, gap, two, htexts, ?_, ?_⟩
  · intro hnone
    obtain ⟨refusal, hrefusal⟩ := hrefused hnone
    have hfollow := hcommented comment
    rw [hrefusal] at hfollow
    exact refused_of_follow hfollow
  · intro hone htwo
    obtain ⟨id, hid⟩ := Option.ne_none_iff_exists'.mp hone
    obtain ⟨id', hid'⟩ := Option.ne_none_iff_exists'.mp htwo
    obtain ⟨hwhole, hunreadable⟩ :=
      between_sessionId hpath (not_blank_append hsplits.first) htexts.whole
    cases hread : readId (one ++ (gap ++ two)) with
    | none =>
      obtain ⟨refusal, hrefusal⟩ := hunreadable hread
      rw [hrefusal] at hq
      cases hq
    | some whole =>
      rw [hwhole whole hread] at hq
      cases hq
      obtain ⟨id?, added, hbehind⟩ := exists_added hr hgreeting
      obtain ⟨s, hs, hsame⟩ := hbehind (some whole) p.texts
      obtain ⟨s', hs', hother⟩ := hbehind (some id') p.texts
      obtain rfl : r = s := Except.ok.inj (hr.symm.trans hs)
      obtain rfl := Except.ok.inj (hgreeting.symm.trans hsame)
      have hread' : parse (place.commented comment) = .ok _ :=
        parse_eq_ok_iff.mpr ⟨s', by rw [hcommented, htaken id id' hid hid']; exact hs', hother⟩
      rw [hread', hid']
      -- an identifier behind the two is the one that counts
      cases id? with
      | none => exact .inr ⟨rfl, rfl⟩
      | some other => exact .inl rfl

/-- **What a comment does to a greeting.**  Where character data is not heard, and next to
    blanks, it is not noticed.  Between two parts of a capability it makes two capabilities of
    one.  Between two parts of the session identifier it makes two of one: the greeting is
    refused unless both can be read, and then the last of them counts, unless there is another
    one behind them. -/
theorem comment_in_greeting (place : Place) (h : parse place.message = .ok greeting)
    (comment : Aside) :
    (place.Unheard → parse (place.commented comment) = .ok greeting) ∧
    (place.Splits capabilityPath →
      ∃ one gap two before behind, CutTexts place.data place.more one gap two ∧
        greeting.capabilities =
          insertReadable .empty (before ++ (one ++ (gap ++ two)) :: behind) ∧
        parse (place.commented comment) =
          .ok ⟨greeting.sessionId, insertReadable .empty (before ++ one :: two :: behind)⟩) ∧
    (place.Splits sessionIdPath →
      ∃ one gap two, CutTexts place.data place.more one gap two ∧
        (readId one = none ∨ readId two = none →
          ∃ fault, parse (place.commented comment) = .error fault) ∧
        (readId one ≠ none → readId two ≠ none →
          parse (place.commented comment) = .ok greeting ∨
            greeting.sessionId = readId (one ++ (gap ++ two)) ∧
              parse (place.commented comment) =
                .ok { greeting with sessionId := readId two })) := by
  refine ⟨?_, ?_, ?_⟩
  · intro hunheard
    exact parse_commented_unheard h hunheard comment
  · intro hsplits
    exact parse_commented_capability h hsplits comment
  · intro hsplits
    exact parse_commented_sessionId h hsplits comment

theorem reaches_capability :
    Reaches [] "<hello><capabilities><capability>".toList (some capabilityPath) := by
  have hhello : IsConstruct [] "hello>".toList (.opening "hello".toList) ["hello".toList] :=
    ⟨by decide, by decide⟩
  have hlist : IsConstruct ["hello".toList] "capabilities>".toList
      (.opening "capabilities".toList) ["capabilities".toList, "hello".toList] :=
    ⟨by decide, by decide⟩
  have hcapability : IsConstruct ["capabilities".toList, "hello".toList] "capability>".toList
      (.opening "capability".toList) capabilityPath := ⟨by decide, by decide⟩
  exact .next List.not_mem_nil hhello nofun (.next List.not_mem_nil hlist nofun
    (.next List.not_mem_nil hcapability nofun (.here capabilityPath)))

theorem reaches_sessionId :
    Reaches [] "<hello><capabilities/><session-id>".toList (some sessionIdPath) := by
  have hhello : IsConstruct [] "hello>".toList (.opening "hello".toList) ["hello".toList] :=
    ⟨by decide, by decide⟩
  have hlist : IsConstruct ["hello".toList] "capabilities/>".toList
      (.empty "capabilities".toList) ["hello".toList] := ⟨by decide, by decide⟩
  have hid : IsConstruct ["hello".toList] "session-id>".toList
      (.opening "session-id".toList) sessionIdPath := ⟨by decide, by decide⟩
  exact .next List.not_mem_nil hhello nofun (.next List.not_mem_nil hlist nofun
    (.next List.not_mem_nil hid nofun (.here sessionIdPath)))

/-- The middle of a capability, with blanks and an entity in it. -/
def midCapability : Place where
  front := "<hello><capabilities><capability>".toList
  path := some capabilityPath
  reaches := reaches_capability
  data := "\n urn: ".toList
  more := "&lt;a ".toList
  rest := "</capability></capabilities></hello>".toList
  data_free := by decide
  more_free := by decide
  rest_markup := by rintro c ⟨⟩; rfl
  outside := not_endsInEntity_of_notMem (by decide)

/-- The middle of a session identifier. -/
def midSessionId : Place where
  front := "<hello><capabilities/><session-id>".toList
  path := some sessionIdPath
  reaches := reaches_sessionId
  data := "4".toList
  more := "2".toList
  rest := "</session-id></hello>".toList
  data_free := by decide
  more_free := by decide
  rest_markup := by rintro c ⟨⟩; rfl
  outside := not_endsInEntity_of_notMem (by decide)

theorem comment_in_greeting_midway :
    ∃ held : CapabilitySet, held.uris = ["urn: <a"] ∧
      parse midCapability.message = .ok ⟨none, held⟩ ∧ midCapability.Splits capabilityPath ∧
      ∃ one gap two before behind, CutTexts midCapability.data midCapability.more one gap two ∧
        held = insertReadable .empty (before ++ (one ++ (gap ++ two)) :: behind) ∧
        parse (midCapability.commented (.comment " - > ".toList (by decide))) =
          .ok ⟨none, insertReadable .empty (before ++ one :: two :: behind)⟩ := by
  let held : CapabilitySet := ⟨[⟨"urn: <a", .empty⟩], by decide⟩
  have hread : parse midCapability.message = .ok ⟨none, held⟩ := by decide +kernel
  have hsplits : midCapability.Splits capabilityPath :=
    ⟨rfl, fun h => absurd (h 'u' (by decide)) (by decide),
      fun h => absurd (h 'a' (by decide)) (by decide)⟩
  exact ⟨held, rfl, hread, hsplits,
    (comment_in_greeting midCapability hread (.comment " - > ".toList (by decide))).2.1 hsplits⟩

/-- **Comments are noticed**: the last part of a session identifier becomes the identifier, and
    the parts of a capability become capabilities. -/
theorem comments_are_noticed :
    (¬ ∀ (place : Place) (greeting : Greeting) (comment : Aside),
      parse place.message = .ok greeting → parse (place.commented comment) = .ok greeting) ∧
    (parse ("<hello><capabilities><capability>urn:ab</capability></capabilities>" ++
          "<session-id>42</session-id></hello>") =
        .ok ⟨some 42, ⟨[⟨"urn:ab", .empty⟩], by decide⟩⟩) ∧
    parse ("<hello><capabilities><capability>urn:a<!-- c -->b</capability></capabilities>" ++
          "<session-id>4<!-- c -->2</session-id></hello>") =
        .ok ⟨some 2, ⟨[⟨"urn:a", .empty⟩, ⟨"b", .empty⟩], by decide⟩⟩ := by
  refine ⟨?_, by decide +kernel, by decide +kernel⟩
  intro hall
  have hread : parse midSessionId.message = .ok ⟨some 42, .empty⟩ := by decide +kernel
  have hcommented := hall midSessionId _ (.comment " c ".toList (by decide)) hread
  have hother : parse (midSessionId.commented (.comment " c ".toList (by decide))) =
      .ok ⟨some 2, .empty⟩ := by decide +kernel
  rw [hother] at hcommented
  cases hcommented

end NetconfClient.Greeting
