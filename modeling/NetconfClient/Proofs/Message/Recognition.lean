/-
  NetconfClient/Proofs/Message/Recognition.lean
  =============================================
  **What is recognised as a greeting and what is read as one.**

  A message is recognised by its root tag, and a greeting is read by another reader
  with other rules: it skips blanks, unescapes the character data in front of the root
  and does not look at attributes.  Both come to the same root, so a message that is
  recognised as a greeting and has a root with content is never refused because of that
  root, and what is read as a greeting is recognised as one, or there is text in front
  of its root or an attribute in it that cannot be read (`readers_agree`).

  White space in front of the root is that of the reader that recognises messages: the
  blanks of markup and the form feed.
-/
import NetconfClient.Proofs.Markup.Blanks
import NetconfClient.Proofs.Message.Comments
import NetconfClient.Proofs.Message.RootTag

namespace NetconfClient

open Text Markup

variable {message : String} {es : Events} {front : List Event} {content : List Char}

/-! ## 1. Recognising a message -/

namespace RootTag

/-- The first attribute that cannot be read, and why. -/
inductive FailsWith : Attributes → MarkupError → Prop
  | markup (e : AttributeError) : FailsWith (.failed e) (.attributes e)
  | value {a : Attribute} {rest : Attributes} {e : EntityError}
      (hkey : ¬ declaresNamespace a.key) (hvalue : unescape a.value = .error e) :
      FailsWith (.more a rest) (.entity e)
  | later {a : Attribute} {rest : Attributes} {e : MarkupError} (ha : Legible a)
      (hrest : FailsWith rest e) : FailsWith (.more a rest) e

theorem collect_of_failsWith {attributes : Attributes} {e : MarkupError}
    (h : FailsWith attributes e) (dict : Dictionary) :
    collect attributes dict = .error (.markup e.message) := by
  induction h generalizing dict with
  | markup e => rfl
  | value hkey hvalue => rw [collect, if_neg hkey, hvalue]
  | @later a rest e ha hrest ih =>
    rw [collect]
    by_cases hkey : declaresNamespace a.key
    · rw [if_pos hkey, ih]
    · obtain ⟨text, htext⟩ := ha.resolve_left hkey
      rw [if_neg hkey, unescape_eq_ok_iff.mpr htext]
      exact ih _

theorem exists_collect {attributes : Attributes} (h : ∀ e, ¬ FailsWith attributes e)
    (dict : Dictionary) : ∃ all, collect attributes dict = .ok all := by
  induction attributes generalizing dict with
  | none => exact ⟨dict, rfl⟩
  | failed e => exact absurd (.markup e) (h _)
  | more a rest ih =>
    rw [collect]
    by_cases hkey : declaresNamespace a.key
    · rw [if_pos hkey]
      exact ih (fun e he => h e (.later (.inl hkey) he)) dict
    · rw [if_neg hkey]
      rcases hvalue : unescape a.value with e | text
      · exact absurd (.value hkey hvalue) (h _)
      · exact ih (fun e he => h e (.later (.inr ⟨text, unescape_eq_ok_iff.mp hvalue⟩) he)) _

/-- **A tag says its local name, unless one of its attributes cannot be read.** -/
theorem ofContent_cases (content : List Char) :
    (∃ e, FailsWith (attributesOf content) e ∧ ofContent content = .error (.markup e.message)) ∨
      (∀ e, ¬ FailsWith (attributesOf content) e) ∧
        ∃ dict, ofContent content = .ok ⟨String.ofList (Markup.localName (tagName content)), dict⟩ := by
  by_cases h : ∃ e, FailsWith (attributesOf content) e
  · obtain ⟨e, he⟩ := h
    refine .inl ⟨e, he, ?_⟩
    rw [ofContent, collect_of_failsWith he]
  · rw [not_exists] at h
    obtain ⟨dict, hdict⟩ := exists_collect h .empty
    refine .inr ⟨h, dict, ?_⟩
    rw [ofContent, hdict]

/-- Character data in front of the root that is not blank. -/
def Stray (front : List Event) : Prop :=
  ∃ data, .text data ∈ front ∧ ∃ c ∈ data, isPrologBlank c = false

/-- **Text in front of the root is refused**, whatever follows it. -/
theorem ofEvents_of_stray (hfront : ∀ event ∈ front, event.Leading) (h : Stray front)
    (behind : Events) :
    ofEvents (front.foldr .event behind) =
      .error (.malformedMessage "text before root element") := by
  obtain ⟨data, hmem, c, hc, hblank⟩ := h
  induction front with
  | nil => cases hmem
  | cons event front ih =>
    rw [List.forall_mem_cons] at hfront
    rw [List.foldr_cons]
    cases hfront.1 with
    | ignored =>
      rw [ofEvents]
      exact ih hfront.2 ((List.mem_cons.mp hmem).resolve_left (by simp))
    | text other =>
      rw [ofEvents]
      split
      · next hother =>
        refine ih hfront.2 ((List.mem_cons.mp hmem).resolve_left ?_)
        rintro ⟨⟩
        rw [List.all_eq_true.mp hother c hc] at hblank
        cases hblank
      · rfl

theorem isPrologBlank_of_not_stray {data : List Char} (h : ¬ Stray front)
    (hmem : .text data ∈ front) : ∀ c ∈ data, isPrologBlank c = true := by
  intro c hc
  by_contra hnot
  rw [Bool.not_eq_true] at hnot
  exact h ⟨data, hmem, c, hc, hnot⟩

/-- Everything else in front of the root is passed over. -/
theorem ofEvents_of_not_stray (hfront : ∀ event ∈ front, event.Leading) (h : ¬ Stray front)
    (behind : Events) : ofEvents (front.foldr .event behind) = ofEvents behind := by
  induction front with
  | nil => rfl
  | cons event front ih =>
    rw [List.forall_mem_cons] at hfront
    have hrest : ¬ Stray front := by
      rintro ⟨data, hmem, hdata⟩
      exact h ⟨data, List.mem_cons_of_mem event hmem, hdata⟩
    rw [List.foldr_cons]
    cases hfront.1 with
    | ignored =>
      rw [ofEvents]
      exact ih hfront.2 hrest
    | text data =>
      have hblank : data.all isPrologBlank = true :=
        List.all_eq_true.mpr (isPrologBlank_of_not_stray h List.mem_cons_self)
      rw [ofEvents, if_pos hblank]
      exact ih hfront.2 hrest

/-- The tag of the outermost element of a message, as it is written. -/
def written? (message : String) : Option Event := (events .kept message.toList).root

/-- What stands in front of the outermost element of a message. -/
def prolog (message : String) : List Event := (events .kept message.toList).prolog

/-- What the reader that recognises messages makes of a message with that root. -/
theorem read_of_root (hes : events .kept message.toList = es)
    (hroot : es.root = some (.opening content) ∨ es.root = some (.empty content)) :
    (Stray es.prolog ∧
        read message = .error (.malformedMessage "text before root element")) ∨
      ¬ Stray es.prolog ∧ read message = ofContent content := by
  have hfront := leading_of_mem_prolog hes
  rcases readings_cases hes with ⟨tag, rest, -, htag, hkept, -⟩ | ⟨hnone, -⟩
  · have hread : read message = ofEvents (es.prolog.foldr .event (.event tag rest)) := by
      rw [read, hes, ← hkept]
    rw [hread]
    by_cases hstray : Stray es.prolog
    · exact .inl ⟨hstray, ofEvents_of_stray hfront hstray _⟩
    · rw [ofEvents_of_not_stray hfront hstray]
      rw [htag] at hroot
      rcases hroot with heq | heq
      · cases heq
        exact .inr ⟨hstray, rfl⟩
      · cases heq
        exact .inr ⟨hstray, rfl⟩
  · rw [hnone] at hroot
    simp at hroot

/-- **What is recognised has a root**, and no text in front of it. -/
theorem root_of_read {root : RootTag} (hes : events .kept message.toList = es)
    (h : read message = .ok root) :
    ¬ Stray es.prolog ∧ ∃ content,
      (es.root = some (.opening content) ∨ es.root = some (.empty content)) ∧
        root.name = String.ofList (localName (tagName content)) := by
  have hfront := leading_of_mem_prolog hes
  rcases readings_cases hes with ⟨tag, rest, htag, hroot, -, -⟩ | ⟨-, last, hlast, hkept, -⟩
  · have hcontent : ∃ content, es.root = some (.opening content) ∨ es.root = some (.empty content) := by
      cases tag with
      | opening content => exact ⟨content, .inl hroot⟩
      | empty content => exact ⟨content, .inr hroot⟩
      | _ => cases htag
    obtain ⟨content, hcontent⟩ := hcontent
    rcases read_of_root hes hcontent with ⟨-, hread⟩ | ⟨hstray, hread⟩
    · rw [hread] at h
      cases h
    · refine ⟨hstray, content, hcontent, ?_⟩
      rw [hread] at h
      rcases ofContent_cases content with ⟨e, -, herror⟩ | ⟨-, dict, hok⟩
      · rw [herror] at h
        cases h
      · rw [hok] at h
        cases h
        rfl
  · have hread : read message = ofEvents (es.prolog.foldr .event last) := by
      rw [read, hes, ← hkept]
    rw [hread] at h
    by_cases hstray : Stray es.prolog
    · rw [ofEvents_of_stray hfront hstray] at h
      cases h
    · rw [ofEvents_of_not_stray hfront hstray] at h
      rcases hlast with rfl | ⟨e, rfl⟩
      · cases h
      · cases h

theorem classify_eq_hello_iff :
    Inbound.classify message = .ok .hello ↔ ∃ root, read message = .ok root ∧ root.name = "hello" := by
  rw [Inbound.classify]
  rcases hread : read message with fault | root
  · simp
  · dsimp only
    rw [Inbound.ofRootTag]
    constructor
    · intro h
      refine ⟨root, rfl, ?_⟩
      by_contra hname
      rw [if_neg hname] at h
      split at h
      · cases h
      · split at h
        · cases h
        · cases h
    · rintro ⟨root', ⟨⟩, hname⟩
      rw [if_pos hname]

end RootTag

/-! ## 2. Reading a greeting -/

namespace Greeting

open RootTag

variable {p q : Progress} {refusal : Refusal}

/-- Whether a message is refused for what stands in the place of the root element. -/
def Refusal.isAboutRoot : Refusal → Bool
  | otherRoot _ => true
  | emptyRoot _ => true
  | nothing => true
  | badSessionId _ _ => false
  | truncated _ => false
  | noCapabilities => false
  | unreadable _ => false

/-- How the complaints about the root element begin. -/
def rootComplaints : List String := ["expected <hello>", "empty greeting"]

/-- Whether a text complains about the root element. -/
def BlamesRoot (text : String) : Prop :=
  ∃ complaint ∈ rootComplaints, complaint.toList <+: text.toList

theorem prefix_toList_append (front back : String) : front.toList <+: (front ++ back).toList := by
  rw [String.toList_append]
  exact List.prefix_append _ _

theorem BlamesRoot.append {front : String} (h : BlamesRoot front) (back : String) :
    BlamesRoot (front ++ back) := by
  obtain ⟨complaint, hmem, hcomplaint⟩ := h
  exact ⟨complaint, hmem, hcomplaint.trans (prefix_toList_append _ _)⟩

/-- A text that does not begin like a complaint about the root element. -/
def Unlike (text : String) : Prop :=
  ∀ complaint ∈ rootComplaints,
    ¬ complaint.toList <+: text.toList ∧ ¬ text.toList <+: complaint.toList

instance (text : String) : Decidable (Unlike text) :=
  inferInstanceAs (Decidable (∀ complaint ∈ rootComplaints, _ ∧ _))

theorem Unlike.not_blamesRoot {text : String} (h : Unlike text) : ¬ BlamesRoot text := by
  rintro ⟨complaint, hmem, hcomplaint⟩
  exact (h complaint hmem).1 hcomplaint

theorem Unlike.append {front : String} (h : Unlike front) (back : String) :
    Unlike (front ++ back) := by
  intro complaint hmem
  have hfront := prefix_toList_append front back
  refine ⟨?_, fun hback => (h complaint hmem).2 (hfront.trans hback)⟩
  intro hcomplaint
  rcases List.prefix_or_prefix_of_prefix hcomplaint hfront with hprefix | hprefix
  · exact (h complaint hmem).1 hprefix
  · exact (h complaint hmem).2 hprefix

theorem unlike_atRange (start stop : Nat) : Unlike (EntityError.atRange start stop) := by
  have hfirst : Unlike "Error while escaping character at range " := by decide
  exact (((hfirst.append _).append _).append _).append _

theorem unlike_entity (e : EntityError) : Unlike e.message := by
  have hquote : Unlike "'" := by decide
  cases e with
  | unterminated start stop => exact (unlike_atRange start stop).append _
  | unknown start stop name => exact ((unlike_atRange start stop).append _).append _
  | null start stop => exact (unlike_atRange start stop).append _
  | longHexadecimal => decide
  | longDecimal => decide
  | badHexadecimal c => exact (hquote.append _).append _
  | badDecimal c => exact (hquote.append _).append _
  | noCharacter code => exact (hquote.append _).append _

theorem unlike_markup (e : MarkupError) : Unlike e.message := by
  cases e with
  | unexpectedBang c =>
    have hfirst :
        Unlike "Only Comment (`--`), CDATA (`[CDATA[`) and DOCTYPE (`DOCTYPE`) nodes can start " := by
      decide
    exact ((hfirst.append _).append _).append _
  | unexpectedEnd construct =>
    have hfirst : Unlike "Unexpected EOF during reading " := by decide
    exact hfirst.append _
  | emptyDoctype => decide
  | mismatch expected found =>
    have hfirst : Unlike "Expecting </" := by decide
    exact (((hfirst.append _).append _).append _).append _
  | attributes e =>
    have hfirst : Unlike "error while parsing attribute: position " := by decide
    exact ((hfirst.append _).append _).append _
  | entity e => exact unlike_entity e

/-- **What a refusal says tells whether it is about the root.** -/
theorem blamesRoot_message_iff (refusal : Refusal) :
    BlamesRoot refusal.message ↔ refusal.isAboutRoot = true := by
  cases refusal with
  | otherRoot name =>
    have hfirst : BlamesRoot "expected <hello>, got <" := ⟨"expected <hello>", by decide, by decide⟩
    exact iff_of_true ((hfirst.append _).append _) rfl
  | emptyRoot name =>
    have hfirst : BlamesRoot "expected <hello>, got empty <" :=
      ⟨"expected <hello>", by decide, by decide⟩
    exact iff_of_true ((hfirst.append _).append _) rfl
  | nothing => exact iff_of_true ⟨"empty greeting", by decide, List.prefix_rfl⟩ rfl
  | badSessionId text cause =>
    have hfirst : Unlike "invalid session-id " := by decide
    exact iff_of_false (((hfirst.append _).append _).append _).not_blamesRoot (by simp [Refusal.isAboutRoot])
  | truncated path =>
    have hfirst : Unlike "truncated greeting inside <" := by decide
    exact iff_of_false ((hfirst.append _).append _).not_blamesRoot (by simp [Refusal.isAboutRoot])
  | noCapabilities =>
    have hfirst : Unlike "greeting without <capabilities>" := by decide
    exact iff_of_false hfirst.not_blamesRoot (by simp [Refusal.isAboutRoot])
  | unreadable e => exact iff_of_false (unlike_markup e).not_blamesRoot (by simp [Refusal.isAboutRoot])

/-- Character data leaves the open elements as they are, and is never refused because of the
    root. -/
theorem text_cases (p : Progress) (data : List Char) :
    (∃ q, p.text data = .ok q ∧ q.path = p.path) ∨
      ∃ refusal, p.text data = .error refusal ∧ refusal.isAboutRoot = false := by
  rw [Progress.text]
  split
  · exact .inr ⟨_, rfl, rfl⟩
  · split
    · exact .inl ⟨_, rfl, rfl⟩
    · split
      · split
        · exact .inl ⟨_, rfl, rfl⟩
        · exact .inr ⟨_, rfl, rfl⟩
      · exact .inl ⟨p, rfl, rfl⟩

/-- **Inside the root nothing is refused because of the root.** -/
theorem isAboutRoot_of_inside (hpath : p.path ≠ []) (h : p.follow es = .error refusal) :
    refusal.isAboutRoot = false := by
  induction es generalizing p with
  | finished =>
    rw [Progress.follow, if_neg hpath] at h
    cases h
    rfl
  | failed e =>
    cases h
    rfl
  | event event rest ih =>
    cases event with
    | opening content =>
      rw [follow_event (.opening content) (by simp) (if_neg fun hroot => hpath hroot.1)] at h
      exact ih (List.cons_ne_nil _ _) h
    | empty content =>
      rw [follow_event (.empty content) (by simp) (if_neg hpath)] at h
      refine ih ?_ h
      exact hpath
    | closing =>
      rw [Progress.follow] at h
      split at h
      · cases h
      · next hleft => exact ih hleft h
    | ignored => exact ih hpath h
    | text data =>
      rcases text_cases p data with ⟨q, hq, hsame⟩ | ⟨cause, hcause, habout⟩
      · rw [follow_event (.text data) (by simp) hq] at h
        exact ih (hsame ▸ hpath) h
      · rw [follow_refused (.text data) (by simp) hcause] at h
        cases h
        exact habout

/-- **In front of the root nothing is heard**: what can be read there is passed over. -/
theorem follow_front (hpath : p.path = []) (hfront : ∀ event ∈ front, event.Leading)
    (hread : ∀ data, .text data ∈ front → Readable data) (behind : Events) :
    p.follow (front.foldr .event behind) = p.follow behind := by
  have hquiet : Quiet p.path := hpath ▸ (by decide)
  induction front with
  | nil => rfl
  | cons event front ih =>
    rw [List.forall_mem_cons] at hfront
    have hrest := ih hfront.2 fun data hmem => hread data (List.mem_cons_of_mem event hmem)
    cases hfront.1 with
    | ignored => exact hrest
    | text data =>
      have htext : p.text data = .ok p :=
        (text_eq_ok_of_quiet hquiet).mpr ⟨rfl, hread data List.mem_cons_self⟩
      exact (follow_event (.text data) (by simp) htext _).trans hrest

/-- What leads to a greeting passes over everything in front of the root. -/
theorem follow_of_front (hpath : p.path = []) (hfront : ∀ event ∈ front, event.Leading)
    {behind : Events} (h : p.follow (front.foldr .event behind) = .ok q) :
    p.follow behind = .ok q := by
  refine (follow_front hpath hfront ?_ behind).symm.trans h
  have hquiet : Quiet p.path := hpath ▸ (by decide)
  induction front with
  | nil => simp
  | cons event front ih =>
    rw [List.forall_mem_cons] at hfront
    rw [List.foldr_cons] at h
    intro data hmem
    cases hfront.1 with
    | ignored => exact ih hfront.2 h data ((List.mem_cons.mp hmem).resolve_left (by simp))
    | text other =>
      -- what is in front has been taken, so it could be read
      rcases htext : p.text other with refusal | p'
      · rw [follow_refused (.text other) (by simp) htext] at h
        cases h
      · obtain ⟨rfl, hread⟩ := (text_eq_ok_of_quiet hquiet).mp htext
        rw [follow_event (.text other) (by simp) htext] at h
        rcases List.mem_cons.mp hmem with heq | hmem
        · cases heq
          exact hread
        · exact ih hfront.2 h data hmem

theorem readable_of_not_stray {data : List Char} (h : ¬ Stray front)
    (hmem : .text data ∈ front.filterMap Event.trimmed?) : Readable data := by
  obtain ⟨event, hevent, htrimmed⟩ := List.mem_filterMap.mp hmem
  cases event with
  | text written =>
    have hblank := isPrologBlank_of_not_stray h hevent
    have hplain : '&' ∉ written := fun hc => absurd (hblank _ hc) (by decide)
    rw [Event.trimmed?] at htrimmed
    split at htrimmed
    · cases htrimmed
    · cases htrimmed
      exact readable_trimWhile_iff.mpr ⟨written, standsFor_self hplain⟩
  | _ => cases htrimmed

/-! ## 3. Both readers -/

theorem leading_of_mem_trimmed (hfront : ∀ event ∈ front, event.Leading) :
    ∀ event ∈ front.filterMap Event.trimmed?, event.Leading := by
  intro event hmem
  obtain ⟨written, hwritten, htrimmed⟩ := List.mem_filterMap.mp hmem
  exact (hfront written hwritten).trimmed htrimmed

/-- **A greeting is read from its root on** if no text stands in front of it. -/
theorem follow_root {tag : Event} (hes : events .kept message.toList = es)
    (hstray : ¬ Stray es.prolog) (hroot : es.root = some tag) :
    ∃ rest, Progress.start.follow (events .trimmed message.toList) =
      Progress.start.follow (.event tag rest) := by
  have hfront := leading_of_mem_prolog hes
  rcases readings_cases hes with ⟨tag', rest, -, hroot', -, htrimmed⟩ | ⟨hnone, -⟩
  · obtain rfl : tag' = tag := Option.some.inj (hroot'.symm.trans hroot)
    refine ⟨rest.trimmed, ?_⟩
    rw [htrimmed]
    exact follow_front rfl (leading_of_mem_trimmed hfront) (fun _ => readable_of_not_stray hstray) _
  · rw [hnone] at hroot
    cases hroot

theorem exists_refusal {fault : Fault} (h : parse message = .error fault) :
    ∃ refusal : Refusal, fault = .capabilityExchange refusal.message ∧
      (Progress.start.follow (events .trimmed message.toList) = .error refusal ∨
        refusal = .noCapabilities) := by
  rw [parse, ofEvents] at h
  rcases hfollow : Progress.start.follow (events .trimmed message.toList) with refusal | p
  · rw [hfollow] at h
    cases h
    exact ⟨refusal, rfl, .inl rfl⟩
  · rw [hfollow] at h
    dsimp only at h
    rw [ofProgress] at h
    by_cases hlist : p.hasCapabilities
    · rw [if_pos hlist] at h
      cases h
    · rw [if_neg hlist] at h
      cases h
      exact ⟨.noCapabilities, rfl, .inr rfl⟩

/-- **A greeting whose root has content and the right name is not refused because of the root.** -/
theorem not_blamesRoot_of_root (hes : events .kept message.toList = es) (hstray : ¬ Stray es.prolog)
    (hroot : es.root = some (.opening content))
    (hname : localName (tagName content) = "hello".toList) {fault : Fault}
    (h : parse message = .error fault) :
    ∃ text, fault = .capabilityExchange text ∧ ¬ BlamesRoot text := by
  obtain ⟨rest, hfollow⟩ := follow_root hes hstray hroot
  obtain ⟨refusal, rfl, hrefused⟩ := exists_refusal h
  refine ⟨refusal.message, rfl, ?_⟩
  rw [blamesRoot_message_iff, Bool.not_eq_true]
  rcases hrefused with hrefused | rfl
  · rw [hfollow, follow_event (.opening content) (by simp) (if_neg fun hother => hother.2 hname)]
      at hrefused
    exact isAboutRoot_of_inside (List.cons_ne_nil _ _) hrefused
  · rfl

theorem parse_of_empty_root (hes : events .kept message.toList = es) (hstray : ¬ Stray es.prolog)
    (hroot : es.root = some (.empty content))
    (hname : localName (tagName content) = "hello".toList) :
    parse message = .error (.capabilityExchange "expected <hello>, got empty <hello/>") := by
  obtain ⟨rest, hfollow⟩ := follow_root hes hstray hroot
  have hrefused : Progress.start.take (.empty content) = .error (.emptyRoot "hello".toList) := by
    rw [Progress.take, hname]
    rfl
  rw [parse, ofEvents, hfollow, follow_refused (.empty content) (by simp) hrefused]
  rfl

/-- **What is read as a greeting has a root of the right name**, with content. -/
theorem root_of_parse {greeting : Greeting} (hes : events .kept message.toList = es)
    (h : parse message = .ok greeting) :
    ∃ content, es.root = some (.opening content) ∧
      localName (tagName content) = "hello".toList := by
  obtain ⟨p, hfollow, -⟩ := parse_eq_ok_iff_follow.mp h
  have hfront := leading_of_mem_prolog hes
  rcases readings_cases hes with ⟨tag, rest, htag, hroot, -, htrimmed⟩ | ⟨-, last, hlast, -, htrimmed⟩
  · rw [htrimmed] at hfollow
    have hbehind := follow_of_front rfl (leading_of_mem_trimmed hfront) hfollow
    cases tag with
    | opening content =>
      refine ⟨content, hroot, ?_⟩
      by_contra hname
      rw [follow_refused (.opening content) (by simp) (if_pos ⟨rfl, hname⟩)] at hbehind
      cases hbehind
    | empty content => cases hbehind
    | _ => cases htag
  · rw [htrimmed] at hfollow
    have hbehind := follow_of_front rfl (leading_of_mem_trimmed hfront) hfollow
    rcases hlast with rfl | ⟨e, rfl⟩
    · cases hbehind
    · cases hbehind

/-- **The two readers of a message agree on its root.**  What is recognised as a greeting and
    has a root with content is not refused because of its root; if the root has no content, it
    is.  What is read as a greeting has a root with the name of one, and is recognised as a
    greeting unless there is text in front of the root or one of its attributes cannot be
    read. -/
theorem readers_agree (message : String) :
    (Inbound.classify message = .ok .hello → (∀ content, written? message ≠ some (.empty content)) →
      ∀ fault, parse message = .error fault →
        ∃ text, fault = .capabilityExchange text ∧ ¬ BlamesRoot text) ∧
    (Inbound.classify message = .ok .hello → ∀ content, written? message = some (.empty content) →
      parse message = .error (.capabilityExchange "expected <hello>, got empty <hello/>")) ∧
    ∀ greeting, parse message = .ok greeting → ∃ content,
      written? message = some (.opening content) ∧
      localName (tagName content) = "hello".toList ∧
      ((∃ root, RootTag.read message = .ok root ∧ root.name = "hello") ∨
        (Stray (prolog message) ∧
          RootTag.read message = .error (.malformedMessage "text before root element")) ∨
        ∃ e, FailsWith (attributesOf content) e ∧
          RootTag.read message = .error (.markup e.message)) := by
  have hrecognised : Inbound.classify message = .ok .hello → ¬ Stray (prolog message) ∧
      ∃ content, (written? message = some (.opening content) ∨
        written? message = some (.empty content)) ∧
          localName (tagName content) = "hello".toList := by
    intro hhello
    obtain ⟨root, hread, hname⟩ := classify_eq_hello_iff.mp hhello
    obtain ⟨hstray, content, hroot, hcontent⟩ := root_of_read rfl hread
    refine ⟨hstray, content, hroot, ?_⟩
    rw [← hname, hcontent, String.toList_ofList]
  refine ⟨?_, ?_, ?_⟩
  · intro hhello hfull fault hfault
    obtain ⟨hstray, content, hroot, hname⟩ := hrecognised hhello
    exact not_blamesRoot_of_root rfl hstray (hroot.resolve_right (hfull content)) hname hfault
  · intro hhello content hempty
    obtain ⟨hstray, content', hroot, hname⟩ := hrecognised hhello
    rw [hempty] at hroot
    rcases hroot with hroot | hroot
    · cases hroot
    · cases hroot
      exact parse_of_empty_root rfl hstray hempty hname
  · intro greeting hgreeting
    obtain ⟨content, hroot, hname⟩ := root_of_parse rfl hgreeting
    refine ⟨content, hroot, hname, ?_⟩
    rcases read_of_root rfl (.inl hroot) with ⟨hstray, hread⟩ | ⟨-, hread⟩
    · exact .inr (.inl ⟨hstray, hread⟩)
    · rcases ofContent_cases content with ⟨e, he, herror⟩ | ⟨-, dict, hok⟩
      · exact .inr (.inr ⟨e, he, hread.trans herror⟩)
      · refine .inl ⟨_, hread.trans hok, ?_⟩
        rw [hname]
        rfl

/-- A greeting behind a form feed and a comment, with an identifier that is no number. -/
def badIdentifier : String :=
  "\x0c<!-- < --><nc:hello at='1'><capabilities/><session-id>x</session-id></nc:hello>"

/-- A greeting that is not recognised, since its attribute has no value. -/
def badAttribute : String := "\x0c<!-- < --><nc:hello at><capabilities/></nc:hello>"

theorem readers_agree_behind_comments :
    (Inbound.classify badIdentifier = .ok .hello ∧ ∃ text,
      parse badIdentifier = .error (.capabilityExchange text) ∧ ¬ BlamesRoot text) ∧
    parse "<hello/>" = .error (.capabilityExchange "expected <hello>, got empty <hello/>") ∧
    ∃ greeting content, parse badAttribute = .ok greeting ∧
      written? badAttribute = some (.opening content) ∧
      ((∃ root, RootTag.read badAttribute = .ok root ∧ root.name = "hello") ∨
        (Stray (prolog badAttribute) ∧
          RootTag.read badAttribute = .error (.malformedMessage "text before root element")) ∨
        ∃ e, FailsWith (attributesOf content) e ∧
          RootTag.read badAttribute = .error (.markup e.message)) := by
  have hhello : Inbound.classify badIdentifier = .ok .hello := by decide +kernel
  have hroot : written? badIdentifier = some (.opening "nc:hello at='1'".toList) := by decide +kernel
  have hrefused : parse badIdentifier = .error (.capabilityExchange
      "invalid session-id \"x\": invalid digit found in string") := by decide +kernel
  have hfull : ∀ content, written? badIdentifier ≠ some (.empty content) := by
    simp [hroot]
  have hempty : written? "<hello/>" = some (.empty "hello".toList) := by decide +kernel
  have hread : parse badAttribute = .ok ⟨none, .empty⟩ := by decide +kernel
  refine ⟨⟨hhello, ?_⟩, ?_, ?_⟩
  · obtain ⟨text, htext, hblames⟩ := (readers_agree badIdentifier).1 hhello hfull _ hrefused
    exact ⟨text, hrefused.trans (congrArg Except.error htext), hblames⟩
  · exact (readers_agree "<hello/>").2.1 (by decide +kernel) _ hempty
  · obtain ⟨content, hcontent, -, hcases⟩ := (readers_agree badAttribute).2.2 _ hread
    exact ⟨_, content, hread, hcontent, hcases⟩

end Greeting

end NetconfClient
