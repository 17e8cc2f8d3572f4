/-
  NetconfClient/Proofs/Message/Greeting.lean
  ==========================================
  **A greeting that is written is read back.**

  Its elements are followed one by one, each off whatever comes behind it: a
  capability adds its text, the session identifier is set, and behind the end of
  `hello` the texts that were collected make up the set (`parse_render`).  The
  text as a whole is recognised by its root tag (`classify_render`) and can be
  closed by a terminator (`closable_render`).
-/
import Mathlib.Data.List.Chain
import NetconfClient.Message.Greeting
import NetconfClient.Message.Hello
import NetconfClient.Message.Inbound
import NetconfClient.Proofs.Framing.RoundTrip
import NetconfClient.Proofs.Markup.Entity
import NetconfClient.Proofs.Markup.Reading
import NetconfClient.Proofs.Text.Decimal

namespace NetconfClient

open Text Markup

/-! ## 1. Capabilities that are read into a set -/

namespace CapabilitySet

theorem ext {set other : CapabilitySet} (h : set.entries = other.entries) : set = other := by
  obtain ⟨entries, distinct⟩ := set
  obtain ⟨entries', distinct'⟩ := other
  cases h
  rfl

theorem putInto_of_notMem {c : Capability} {entries : List Capability}
    (h : c.uri ∉ entries.map (·.uri)) : c.putInto entries = entries ++ [c] := by
  induction entries with
  | nil => rfl
  | cons d entries ih =>
    rw [List.map_cons, List.mem_cons, not_or] at h
    rw [Capability.putInto, if_neg (Ne.symm h.1), ih h.2, List.cons_append]

end CapabilitySet

namespace Greeting

/-- Texts that are read as capabilities of new URIs come behind what is there. -/
theorem entries_insertReadable {text : Capability → List Char} {cs : List Capability}
    (set : CapabilitySet) (hread : ∀ c ∈ cs, Capability.ofTrimmed (trim (text c)) = .ok c)
    (hdistinct : ((set.entries ++ cs).map (·.uri)).Nodup) :
    (insertReadable set (cs.map text)).entries = set.entries ++ cs := by
  induction cs generalizing set with
  | nil => rw [List.map_nil, insertReadable, List.append_nil]
  | cons c cs ih =>
    have hnew : c.uri ∉ set.entries.map (·.uri) := by
      rw [List.map_append, List.map_cons] at hdistinct
      intro hc
      exact (List.nodup_append.mp hdistinct).2.2 _ hc _ List.mem_cons_self rfl
    have hinsert : (set.insert c).entries = set.entries ++ [c] :=
      CapabilitySet.putInto_of_notMem hnew
    have hwhole : (set.insert c).entries ++ cs = set.entries ++ c :: cs := by
      rw [hinsert, List.append_assoc, List.singleton_append]
    rw [List.map_cons, insertReadable, hread c List.mem_cons_self]
    dsimp only
    rw [ih _ (fun d hd => hread d (List.mem_cons_of_mem c hd)) (by rwa [hwhole]), hwhole]

/-! ## 2. Following one construct -/

variable {p q : Progress} {opened : List (List Char)} {content name rest : List Char}

theorem follow_event (event : Event) (hevent : event ≠ .closing) (hp : p.take event = .ok q)
    (es : Events) : p.follow (.event event es) = q.follow es := by
  cases event with
  | closing => exact absurd rfl hevent
  | _ => rw [Progress.follow, hp]; exact nofun

theorem follow_refused {refusal : Refusal} (event : Event) (hevent : event ≠ .closing)
    (hp : p.take event = .error refusal) (es : Events) :
    p.follow (.event event es) = .error refusal := by
  cases event with
  | closing => exact absurd rfl hevent
  | _ => rw [Progress.follow, hp]; exact nofun

theorem follow_opening (h : IsTagContent content) (hfull : content.getLast? ≠ some '/')
    (hp : p.opening (localName (tagName content)) = .ok q) :
    p.follow (Reader.events .trimmed ⟨opened, '<' :: (content ++ '>' :: rest)⟩) =
      q.follow (Reader.events .trimmed ⟨tagName content :: opened, rest⟩) := by
  rw [events_opening h hfull]
  exact follow_event (.opening content) nofun hp _

theorem follow_empty (h : IsTagContent content) (hempty : content.getLast? = some '/')
    (hp : p.empty (localName (tagName content.dropLast)) = .ok q) :
    p.follow (Reader.events .trimmed ⟨opened, '<' :: (content ++ '>' :: rest)⟩) =
      q.follow (Reader.events .trimmed ⟨opened, rest⟩) := by
  rw [events_empty h hempty]
  exact follow_event (.empty content.dropLast) nofun hp _

theorem follow_text {data : List Char} (hdata : '<' ∉ data)
    (hne : trimWhile isMarkupBlank data ≠ []) (hp : p.text (trimWhile isMarkupBlank data) = .ok q) :
    p.follow (Reader.events .trimmed ⟨opened, data ++ '<' :: rest⟩) =
      q.follow (Reader.events .trimmed ⟨opened, '<' :: rest⟩) := by
  rw [events_text hdata hne]
  exact follow_event (.text (trimWhile isMarkupBlank data)) nofun hp _

/-- An end tag goes back to the element around it, or ends the greeting. -/
theorem follow_closing (hname : '>' ∉ name) (hblank : closingName name = name) :
    p.follow (Reader.events .trimmed ⟨name :: opened, '<' :: '/' :: (name ++ '>' :: rest)⟩) =
      if p.path.tail = [] then .ok { p with path := [] }
      else Progress.follow { p with path := p.path.tail }
        (Reader.events .trimmed ⟨opened, rest⟩) := by
  rw [events_closing hname hblank, Progress.follow]

/-! ## 3. The elements of a greeting -/

/-- Inside the list of capabilities. -/
def listing (sessionId : Option Nat) (texts : List (List Char)) : Progress :=
  ⟨["capabilities".toList, "hello".toList], sessionId, texts, true⟩

/-- **A capability adds its text**, without the blanks around it. -/
theorem follow_capability {text : String} {texts : List (List Char)}
    (hne : trimWhile isMarkupBlank text.toList ≠ []) :
    (listing none texts).follow
        (Reader.events .trimmed ⟨opened, (Hello.renderCapability text).toList ++ rest⟩) =
      (listing none (trimWhile isMarkupBlank text.toList :: texts)).follow
        (Reader.events .trimmed ⟨opened, rest⟩) := by
  have hshape : (Hello.renderCapability text).toList ++ rest =
      '<' :: ("capability".toList ++ '>' :: (escape text.toList ++
        '<' :: '/' :: ("capability".toList ++ '>' :: rest))) := by
    have htext : text ≠ "" := by
      rintro rfl
      exact hne rfl
    simp [Hello.renderCapability, htext, escapeString]
  have hdata : '<' ∉ escape text.toList := notMem_escape (by decide) (by decide) _
  have hescaped : trimWhile isMarkupBlank (escape text.toList) ≠ [] := by
    rw [trimWhile_escape]
    exact fun h => hne (escape_eq_nil_iff.mp h)
  -- the text is taken at the path of a capability
  have htext : Progress.text ⟨capabilityPath, none, texts, true⟩
      (trimWhile isMarkupBlank (escape text.toList)) =
        .ok ⟨capabilityPath, none, trimWhile isMarkupBlank text.toList :: texts, true⟩ := by
    rw [trimWhile_escape, Progress.text, unescape_escape]
    rfl
  have hname : tagName "capability".toList = "capability".toList := by decide
  rw [hshape, follow_opening (q := ⟨capabilityPath, none, texts, true⟩) (by decide) (by decide) rfl,
    follow_text hdata hescaped htext, hname, follow_closing (by decide) (by decide)]
  rfl

theorem follow_renderAll {texts : List String} {before : List (List Char)}
    (hne : ∀ t ∈ texts, trimWhile isMarkupBlank t.toList ≠ []) :
    (listing none before).follow
        (Reader.events .trimmed ⟨opened, (Hello.renderAll texts).toList ++ rest⟩) =
      (listing none ((texts.map fun t => trimWhile isMarkupBlank t.toList).reverse ++ before)).follow
        (Reader.events .trimmed ⟨opened, rest⟩) := by
  induction texts generalizing before with
  | nil => rfl
  | cons t texts ih =>
    rw [Hello.renderAll, String.toList_append, List.append_assoc,
      follow_capability (hne t List.mem_cons_self),
      ih fun d hd => hne d (List.mem_cons_of_mem t hd), List.map_cons, List.reverse_cons,
      List.append_assoc, List.singleton_append]

/-- **The list of capabilities adds their texts**, the last one first. -/
theorem follow_capabilities {texts : List String}
    (hne : ∀ t ∈ texts, trimWhile isMarkupBlank t.toList ≠ []) :
    Progress.follow ⟨["hello".toList], none, [], false⟩
        (Reader.events .trimmed ⟨opened, (Hello.renderCapabilities texts).toList ++ rest⟩) =
      Progress.follow
        ⟨["hello".toList], none, (texts.map fun t => trimWhile isMarkupBlank t.toList).reverse, true⟩
        (Reader.events .trimmed ⟨opened, rest⟩) := by
  by_cases hempty : texts = []
  · have hshape : (Hello.renderCapabilities texts).toList ++ rest =
        '<' :: ("capabilities/".toList ++ '>' :: rest) := by
      rw [Hello.renderCapabilities, if_pos hempty]
      simp
    rw [hshape, hempty,
      follow_empty (q := ⟨["hello".toList], none, [], true⟩) (by decide) (by decide) rfl]
    rfl
  · have hshape : (Hello.renderCapabilities texts).toList ++ rest =
        '<' :: ("capabilities".toList ++ '>' :: ((Hello.renderAll texts).toList ++
          '<' :: '/' :: ("capabilities".toList ++ '>' :: rest))) := by
      rw [Hello.renderCapabilities, if_neg hempty]
      simp
    have hname : tagName "capabilities".toList = "capabilities".toList := by decide
    rw [hshape, follow_opening (q := listing none []) (by decide) (by decide) rfl,
      follow_renderAll hne, hname, follow_closing (by decide) (by decide), List.append_nil]
    rfl

theorem isBlank_of_isDigit {c : Char} (h : c.isDigit = true) : isBlank c = false := by
  have hrange : 48 ≤ c.toNat ∧ c.toNat ≤ 57 := by
    simpa [Char.isDigit, UInt32.le_iff_toNat_le] using h
  simp only [isBlank, Bool.or_eq_false_iff, Bool.and_eq_false_iff, decide_eq_false_iff_not,
    beq_eq_false_iff_ne]
  omega

theorem notMem_reserved_of_isDigit {c : Char} (h : c.isDigit = true) : c ∉ reserved := by
  have hall : ∀ c ∈ reserved, c.isDigit = false := forall_reserved (by decide)
  intro hc
  rw [hall c hc] at h
  cases h

/-- Digits are read as they are, and have no blank to trim. -/
theorem unescape_digits {digits : List Char} (h : ∀ c ∈ digits, c.isDigit = true) :
    unescape digits = .ok digits ∧ trim digits = digits ∧
      trimWhile isMarkupBlank digits = digits := by
  have htrim : trim digits = digits :=
    trimWhile_eq_self (fun c hc => isBlank_of_isDigit (h c (List.mem_of_mem_head? hc)))
      (fun c hc => isBlank_of_isDigit (h c (List.mem_of_getLast? hc)))
  have hmarkup : ∀ c ∈ digits, isMarkupBlank c = false := fun c hc =>
    Bool.eq_false_iff.mpr fun hblank => by
      have hd := isBlank_of_isDigit (h c hc)
      rw [isBlank_of_isMarkupBlank c hblank] at hd
      cases hd
  have hread := unescape_escape digits
  rw [escape_eq_self fun c hc => notMem_reserved_of_isDigit (h c hc)] at hread
  exact ⟨hread, htrim, trimWhile_eq_self (fun c hc => hmarkup c (List.mem_of_mem_head? hc))
    (fun c hc => hmarkup c (List.mem_of_getLast? hc))⟩

theorem notMem_toDigits {c : Char} (hc : c ∈ reserved) (n : Nat) : c ∉ Nat.toDigits 10 n :=
  fun h => notMem_reserved_of_isDigit (Nat.isDigit_of_mem_toDigits (by decide) (by decide) h) hc

/-- **The session identifier is set.** -/
theorem follow_sessionId {sessionId : Option Nat} {texts : List (List Char)}
    (hid : ∀ id ∈ sessionId, id ≤ Unsigned.max64) :
    Progress.follow ⟨["hello".toList], none, texts, true⟩
        (Reader.events .trimmed ⟨opened, (Hello.renderSessionId sessionId).toList ++ rest⟩) =
      Progress.follow ⟨["hello".toList], sessionId, texts, true⟩
        (Reader.events .trimmed ⟨opened, rest⟩) := by
  cases sessionId with
  | none => rfl
  | some id =>
    have hshape : (Hello.renderSessionId (some id)).toList ++ rest =
        '<' :: ("session-id".toList ++ '>' :: (Nat.toDigits 10 id ++
          '<' :: '/' :: ("session-id".toList ++ '>' :: rest))) := by
      simp [Hello.renderSessionId, Nat.toList_repr]
    have hdigits : ∀ c ∈ Nat.toDigits 10 id, c.isDigit = true :=
      fun c hc => Nat.isDigit_of_mem_toDigits (by decide) (by decide) hc
    obtain ⟨hunescape, htrim, hmarkup⟩ := unescape_digits hdigits
    have htext : Progress.text ⟨sessionIdPath, none, texts, true⟩
        (trimWhile isMarkupBlank (Nat.toDigits 10 id)) =
          .ok ⟨sessionIdPath, some id, texts, true⟩ := by
      rw [hmarkup, Progress.text, hunescape]
      dsimp only
      rw [if_neg (show sessionIdPath ≠ capabilityPath by decide), if_pos rfl, htrim,
        Unsigned.parse_toDigits (hid id rfl)]
    have hne : trimWhile isMarkupBlank (Nat.toDigits 10 id) ≠ [] := by
      rw [hmarkup]
      exact Nat.toDigits_ne_nil
    have hname : tagName "session-id".toList = "session-id".toList := by decide
    rw [hshape, follow_opening (q := ⟨sessionIdPath, none, texts, true⟩) (by decide) (by decide) rfl,
      follow_text (notMem_toDigits (by decide) id) hne htext, hname, follow_closing (by decide) (by decide)]
    rfl

/-! ## 4. The greeting -/

/-- The content of the start tag of a greeting. -/
def helloContent : List Char := "hello xmlns=\"urn:ietf:params:xml:ns:netconf:base:1.0\"".toList

/-- The end tag of a greeting. -/
def helloEnd : List Char := '<' :: '/' :: ("hello".toList ++ ['>'])

theorem toList_render (hello : Hello) :
    hello.render.toList = ('<' :: (helloContent ++ ['>'])) ++
      ((Hello.renderCapabilities hello.capabilities).toList ++
        ((Hello.renderSessionId hello.sessionId).toList ++ helloEnd)) := by
  have hjoin : ∀ front middle last back : String, (front ++ middle ++ last ++ back).toList =
      front.toList ++ (middle.toList ++ (last.toList ++ back.toList)) := by simp
  have hfront : ("<hello xmlns=\"" ++ baseNamespace ++ "\">").toList =
      '<' :: (helloContent ++ ['>']) := by decide +kernel
  have hback : "</hello>".toList = helloEnd := by decide
  refine (hjoin ("<hello xmlns=\"" ++ baseNamespace ++ "\">") _ _ "</hello>").trans ?_
  rw [hfront, hback]

theorem isTagContent_helloContent : IsTagContent helloContent := by decide +kernel

theorem events_render (blanks : Blanks) (hello : Hello) :
    events blanks hello.render.toList = .event (.opening helloContent)
      (Reader.events blanks ⟨["hello".toList],
        (Hello.renderCapabilities hello.capabilities).toList ++
          ((Hello.renderSessionId hello.sessionId).toList ++ helloEnd)⟩) := by
  have hname : tagName helloContent = "hello".toList := by decide
  rw [toList_render, List.cons_append, List.append_assoc, List.singleton_append, events,
    if_neg (by decide), events_opening isTagContent_helloContent (by decide), hname]

/-- **A greeting that is written is read back**: the capabilities that are read from the
    announced texts, and the session identifier. -/
theorem parse_render {set : CapabilitySet} {sessionId : Option Nat}
    (hread : ∀ c ∈ set.entries, Capability.parse c.render = .ok c)
    (hid : ∀ id ∈ sessionId, id ≤ Unsigned.max64) :
    parse (Hello.render ⟨set.announcements, sessionId⟩) = .ok ⟨sessionId, set⟩ := by
  have hne : ∀ t ∈ set.announcements, trimWhile isMarkupBlank t.toList ≠ [] := by
    intro t ht hnil
    obtain ⟨c, hc, rfl⟩ := List.mem_map.mp ht
    have hparse := hread c hc
    rw [Capability.parse, ← trim_trimWhile, hnil] at hparse
    cases hparse
  have hcaps : insertReadable .empty
      (set.announcements.map fun t => trimWhile isMarkupBlank t.toList) = set := by
    refine CapabilitySet.ext ?_
    rw [CapabilitySet.announcements, List.map_map]
    refine entries_insertReadable .empty (fun c hc => ?_) set.distinct
    rw [Function.comp, trim_trimWhile]
    exact hread c hc
  have hfollow : Progress.start.follow
      (events .trimmed (Hello.render ⟨set.announcements, sessionId⟩).toList) =
      .ok ⟨[], sessionId,
        (set.announcements.map fun t => trimWhile isMarkupBlank t.toList).reverse, true⟩ := by
    have hopening : Progress.start.take (.opening helloContent) =
        .ok ⟨["hello".toList], none, [], false⟩ := rfl
    rw [events_render, follow_event (.opening helloContent) nofun hopening, follow_capabilities hne,
      follow_sessionId hid, helloEnd, follow_closing (by decide) (by decide)]
    rfl
  rw [parse, ofEvents, hfollow]
  dsimp only
  rw [ofProgress, if_pos rfl, List.reverse_reverse, hcaps]

/-- **A greeting is recognised by its root tag.** -/
theorem classify_render (hello : Hello) : Inbound.classify hello.render = .ok .hello := by
  have hroot : RootTag.ofContent helloContent = .ok ⟨"hello", .empty⟩ := by decide +kernel
  rw [Inbound.classify, RootTag.read, events_render, RootTag.ofEvents, hroot]
  rfl

/-! ## 5. A greeting on the wire -/

/-- A text in which no `>` follows a `]`, nor is the first character. -/
def Unclosing (cs : List Char) : Prop :=
  cs.IsChain (fun c d => ¬ (c = ']' ∧ d = '>')) ∧ cs.head? ≠ some '>'

instance (cs : List Char) : Decidable (Unclosing cs) := inferInstanceAs (Decidable (_ ∧ _))

theorem Unclosing.append {front back : List Char} (hfront : Unclosing front)
    (hback : Unclosing back) : Unclosing (front ++ back) := by
  refine ⟨List.isChain_append.mpr ⟨hfront.1, hback.1, ?_⟩, ?_⟩
  · rintro c - d hd ⟨-, rfl⟩
    exact hback.2 hd
  · cases front with
    | nil => exact hback.2
    | cons c cs => exact hfront.2

theorem unclosing_of_notMem {cs : List Char} (h : '>' ∉ cs) : Unclosing cs := by
  refine ⟨(List.pairwise_of_forall_mem_list ?_).isChain, fun hhead => h (List.mem_of_mem_head? hhead)⟩
  rintro c - d hd ⟨-, rfl⟩
  exact h hd

theorem unclosing_renderAll (texts : List String) : Unclosing (Hello.renderAll texts).toList := by
  induction texts with
  | nil => decide
  | cons t texts ih =>
    have hone : Unclosing (Hello.renderCapability t).toList := by
      unfold Hello.renderCapability
      split
      · decide
      · have hescaped : Unclosing (escape t.toList) :=
          unclosing_of_notMem (notMem_escape (by decide) (by decide) _)
        have hopen : Unclosing "<capability>".toList := by decide
        have hclose : Unclosing "</capability>".toList := by decide
        have hshape : ("<capability>" ++ escapeString t ++ "</capability>").toList =
            "<capability>".toList ++ escape t.toList ++ "</capability>".toList := by
          simp [escapeString]
        rw [hshape]
        exact (hopen.append hescaped).append hclose
    rw [Hello.renderAll, String.toList_append]
    exact hone.append ih

theorem unclosing_render (hello : Hello) : Unclosing hello.render.toList := by
  have hcaps : Unclosing (Hello.renderCapabilities hello.capabilities).toList := by
    unfold Hello.renderCapabilities
    split
    · decide
    · rw [String.toList_append, String.toList_append]
      exact (Unclosing.append (by decide) (unclosing_renderAll _)).append (by decide)
  have hid : Unclosing (Hello.renderSessionId hello.sessionId).toList := by
    cases hello.sessionId with
    | none => decide
    | some id =>
      have hshape : (Hello.renderSessionId (some id)).toList = "<session-id>".toList ++
          (Nat.toDigits 10 id ++ "</session-id>".toList) := by
        simp [Hello.renderSessionId, Nat.toList_repr]
      rw [hshape]
      exact Unclosing.append (by decide)
        ((unclosing_of_notMem (notMem_toDigits (by decide) id)).append (by decide))
  rw [toList_render]
  exact Unclosing.append (by decide +kernel) (hcaps.append (hid.append (by decide)))

/-- **A greeting can be closed by a terminator.** -/
theorem closable_render (hello : Hello) : Framing.Terminated.Closable hello.render := by
  have hchain := (unclosing_render hello).1
  constructor
  · intro hmark
    have hinside := hchain.infix hmark
    exact absurd hinside (by decide)
  · intro hhalf
    have hinside := hchain.infix hhalf.isInfix
    exact absurd hinside (by decide)

/-- **Nothing is trimmed off a greeting.** -/
theorem trimString_render (hello : Hello) : trimString hello.render = hello.render := by
  have hlast : hello.render.toList.getLast? = some '>' := by
    have hend : helloEnd.getLast? = some '>' := by decide
    rw [toList_render, ← List.append_assoc, ← List.append_assoc, List.getLast?_append, hend,
      Option.some_or]
  have htrim : trim hello.render.toList = hello.render.toList := by
    refine trimWhile_eq_self ?_ ?_
    · rw [toList_render]
      rintro c hc
      cases hc
      rfl
    · rw [hlast]
      rintro c hc
      cases hc
      rfl
  rw [trimString, htrim, String.ofList_toList]

end Greeting
end NetconfClient
