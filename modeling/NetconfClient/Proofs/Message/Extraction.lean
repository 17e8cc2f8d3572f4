/-
  NetconfClient/Proofs/Message/Extraction.lean
  ============================================
  **A greeting says what its tree says.**

  The events are followed with the path of open elements at hand.  Below an
  element that is neither the list of capabilities nor the session identifier
  nothing is taken (`follow_beside`); inside the list every capability adds its
  text (`follow_list`); inside `hello` the effect of the events is the effect of
  its elements, one after the other (`follow_hello`).  So the greeting that is
  read can be read off the tree (`parse_document`).
-/
import NetconfClient.Proofs.Markup.Tree
import NetconfClient.Proofs.Message.Greeting

namespace NetconfClient.Greeting

open Text Markup

variable {p q : Progress} {content inner : Content} {data : CharData} {tag : Tag} {es : Events}

/-! ## 1. What the tree says -/

def sessionIdTexts (hello : Content) : List (List Char) := hello.texts "session-id".toList

def listedTexts (list : Content) : List (List Char) := list.texts "capability".toList

/-- The texts of the capabilities inside `hello`, in document order. -/
def capabilityTexts (hello : Content) : List (List Char) :=
  (hello.named "capabilities".toList).flatMap listedTexts

def readId (text : List Char) : Option Nat := (Unsigned.parse Unsigned.max64 (trim text)).toOption

def readCapability (text : List Char) : Option Capability :=
  (Capability.parse (String.ofList text)).toOption

/-- There is no markup inside capabilities and session identifiers. -/
structure Leaves (hello : Content) : Prop where
  capability : ∀ list ∈ hello.named "capabilities".toList,
    ∀ c ∈ list.named "capability".toList, c.isLeaf = true
  sessionId : ∀ c ∈ hello.named "session-id".toList, c.isLeaf = true

/-! ## 2. One construct -/

theorem follow_ignored (p : Progress) (es : Events) :
    p.follow (.event .ignored es) = p.follow es :=
  follow_event .ignored (by simp) rfl es

theorem follow_end (h : p.path.tail ≠ []) :
    p.follow (.event .closing es) = Progress.follow { p with path := p.path.tail } es := by
  rw [Progress.follow, if_neg h]

def Progress.enter (p : Progress) (name : List Char) : Progress :=
  { p with path := name :: p.path, hasCapabilities := p.listsCapabilities name }

theorem follow_start (hpath : p.path ≠ []) (tag : Tag) (es : Events) :
    p.follow (.event (.opening tag.content) es) = (p.enter tag.localName).follow es := by
  refine follow_event (.opening tag.content) (by simp) ?_ es
  rw [Progress.take, tag.tagName_content, Progress.opening, if_neg fun h => hpath h.1]
  rfl

theorem follow_emptyElement (hpath : p.path ≠ []) (tag : Tag) (es : Events) :
    p.follow (.event (.empty tag.content) es) =
      Progress.follow { p with hasCapabilities := p.listsCapabilities tag.localName } es := by
  refine follow_event (.empty tag.content) (by simp) ?_ es
  rw [Progress.take, tag.tagName_content, Progress.empty, if_neg hpath]
  rfl

/-- A path at which character data is not taken. -/
def Quiet (path : List (List Char)) : Prop := path ≠ capabilityPath ∧ path ≠ sessionIdPath

instance (path : List (List Char)) : Decidable (Quiet path) := inferInstanceAs (Decidable (_ ∧ _))

theorem follow_charData (h : Quiet p.path) : p.follow (data.events es) = p.follow es := by
  unfold CharData.events
  split
  · rfl
  · refine follow_event (.text data.trimmed.written) (by simp) ?_ es
    rw [Progress.take, Progress.text, data.trimmed.unescape_written]
    dsimp only
    rw [if_neg h.1, if_neg h.2]

theorem text?_last (data : CharData) :
    (Content.last data).text? = if data.isBlank then none else some data.value := rfl

/-- Texts of capabilities that are added, without the blanks around them. -/
def Progress.collect (p : Progress) (texts : List (List Char)) : Progress :=
  { p with texts := (texts.map (trimWhile isMarkupBlank)).reverse ++ p.texts }

theorem collect_append (p : Progress) (texts more : List (List Char)) :
    p.collect (texts ++ more) = (p.collect texts).collect more := by
  simp [Progress.collect]

/-- **The text of a capability is added.** -/
theorem follow_capabilityText (hpath : p.path = capabilityPath) :
    p.follow (data.events es) = (p.collect (Content.last data).text?.toList).follow es := by
  rw [text?_last]
  unfold CharData.events
  split
  · rfl
  · refine follow_event (.text data.trimmed.written) (by simp) ?_ es
    rw [Progress.take, Progress.text, data.trimmed.unescape_written]
    dsimp only
    rw [if_pos hpath, data.value_trimmed]
    rfl

/-- What the text of a session identifier does. -/
def Progress.identify (p : Progress) : Option (List Char) → Except Refusal Progress
  | none => .ok p
  | some text =>
    match Unsigned.parse Unsigned.max64 (trim text) with
    | .ok id => .ok { p with sessionId := some id }
    | .error cause => .error (.badSessionId (trimWhile isMarkupBlank text) cause)

/-- **The text of a session identifier is read.** -/
theorem follow_sessionIdText (hpath : p.path = sessionIdPath) :
    p.follow (data.events es) = p.identify (Content.last data).text? >>= (·.follow es) := by
  have htext : p.text data.trimmed.written = p.identify (some data.value) := by
    rw [Progress.text, data.trimmed.unescape_written]
    dsimp only
    rw [if_neg (hpath ▸ by decide), if_pos hpath, data.value_trimmed, trim_trimWhile]
    rfl
  rw [text?_last]
  unfold CharData.events
  split
  · rfl
  · cases hread : p.identify (some data.value) with
    | ok q =>
      rw [hread] at htext
      exact follow_event (.text data.trimmed.written) (by simp) htext es
    | error refusal =>
      rw [hread] at htext
      rw [Progress.follow, Progress.take, htext]
      · rfl
      · intro hclosing
        cases hclosing

/-! ## 3. Content -/

/-- Below such a path nothing is taken. -/
structure Beside (path : List (List Char)) : Prop where
  deep : 2 ≤ path.length
  capability : ¬ path <:+ capabilityPath
  sessionId : ¬ path <:+ sessionIdPath

theorem Beside.cons {path : List (List Char)} (h : Beside path) (name : List Char) :
    Beside (name :: path) where
  deep := Nat.le_succ_of_le h.deep
  capability hsuffix := h.capability ((List.suffix_cons name path).trans hsuffix)
  sessionId hsuffix := h.sessionId ((List.suffix_cons name path).trans hsuffix)

theorem Beside.quiet {path : List (List Char)} (h : Beside path) : Quiet path := by
  constructor
  · rintro rfl
    exact h.capability List.suffix_rfl
  · rintro rfl
    exact h.sessionId List.suffix_rfl

theorem Beside.ne_nil {path : List (List Char)} (h : Beside path) : path ≠ [] := by
  rintro rfl
  exact absurd h.deep (by decide)

/-- The list of capabilities begins at the second level only. -/
theorem listsCapabilities_of_deep (h : 2 ≤ p.path.length) (name : List Char) :
    p.listsCapabilities name = p.hasCapabilities := by
  unfold Progress.listsCapabilities
  split
  · next heq =>
    rw [heq] at h
    simp at h
  · exact Bool.or_false _

/-- Behind its end tag an element has left nothing but what was found in it. -/
theorem follow_leave (hpath : p.path ≠ []) {name : List Char} (hq : q.path = name :: p.path)
    (es : Events) : q.follow (.event .closing es) = Progress.follow { q with path := p.path } es := by
  rw [follow_end (by rw [hq]; exact hpath), hq]
  rfl

/-- **Beside the two paths nothing is taken**, however deep the content is. -/
theorem follow_beside (h : Beside p.path) : p.follow (content.events es) = p.follow es := by
  -- an element is entered at a path that lies beside the two again
  induction content generalizing p es with
  | last data => exact follow_charData h.quiet
  | aside data a rest ih => rw [Content.events, follow_charData h.quiet, follow_ignored, ih h]
  | empty data tag rest ih =>
    rw [Content.events, follow_charData h.quiet, follow_emptyElement h.ne_nil,
      listsCapabilities_of_deep h.deep]
    exact ih h
  | element data tag inner gap rest ihinner ih =>
    rw [Content.events, follow_charData h.quiet, follow_start h.ne_nil,
      ihinner (h.cons tag.localName), follow_leave (p := p) h.ne_nil rfl, Progress.enter,
      listsCapabilities_of_deep h.deep]
    exact ih h

theorem listedTexts_cons {child : List Char × Content} {rest : Content}
    (h : content.children = child :: rest.children) :
    listedTexts content =
      (if child.1 = "capability".toList then child.2.text?.toList else []) ++ listedTexts rest := by
  rw [listedTexts, Content.texts, h, textsIn_cons]
  rfl

theorem Leaves.rest {child : List Char × Content} {rest : Content} (hleaves : Leaves content)
    (h : content.children = child :: rest.children) : Leaves rest where
  capability list hlist := hleaves.capability list (Content.mem_named_of_rest h hlist)
  sessionId c hc := hleaves.sessionId c (Content.mem_named_of_rest h hc)

def listPath : List (List Char) := ["capabilities".toList, "hello".toList]

theorem beside_listPath {name : List Char} (h : name ≠ "capability".toList) :
    Beside (name :: listPath) := by
  constructor
  · simp [listPath]
  · intro hsuffix
    have heq := hsuffix.eq_of_length rfl
    exact h (List.cons.inj heq).1
  · intro hsuffix
    have hlength := hsuffix.length_le
    simp [listPath, sessionIdPath] at hlength

theorem follow_listed (hpath : p.path = listPath)
    (hleaf : tag.localName = "capability".toList → inner.isLeaf = true) :
    p.follow (.event (.opening tag.content) (inner.events (.event .closing es))) =
      (p.collect (if tag.localName = "capability".toList then inner.text?.toList else [])).follow
        es := by
  have hne : p.path ≠ [] := hpath ▸ List.cons_ne_nil _ _
  have henter : p.enter tag.localName = { p with path := tag.localName :: p.path } := by
    rw [Progress.enter, listsCapabilities_of_deep (by rw [hpath]; decide)]
  rw [follow_start hne, henter]
  split
  · next hname =>
    cases inner with
    | last data =>
      rw [Content.events, follow_capabilityText (by rw [hname, hpath]; rfl)]
      exact follow_leave (p := p) hne rfl es
    | aside | empty | element => exact absurd (hleaf hname) (by simp [Content.isLeaf])
  · next hname =>
    rw [follow_beside (by rw [hpath]; exact beside_listPath hname)]
    exact follow_leave (p := p) hne rfl es

/-- **Inside the list every capability adds its text.** -/
theorem follow_list (hpath : p.path = listPath)
    (hleaf : ∀ c ∈ content.named "capability".toList, c.isLeaf = true) :
    p.follow (content.events es) = (p.collect (listedTexts content)).follow es := by
  have hquiet : ∀ {path : List (List Char)}, path = listPath → Quiet path := by
    rintro path rfl
    decide
  induction content generalizing p es with
  | last data => exact follow_charData (hquiet hpath)
  | aside data a rest ih =>
    rw [Content.events, follow_charData (hquiet hpath), follow_ignored]
    exact ih hpath hleaf
  | empty data tag rest ih =>
    have hchildren : (Content.empty data tag rest).children =
        (tag.localName, .nothing) :: rest.children := rfl
    have hnone : (if tag.localName = "capability".toList then Content.nothing.text?.toList else []) =
        [] := ite_self []
    have hne : p.path ≠ [] := hpath ▸ List.cons_ne_nil _ _
    rw [Content.events, follow_charData (hquiet hpath), follow_emptyElement hne,
      listsCapabilities_of_deep (by rw [hpath]; decide), listedTexts_cons hchildren, hnone]
    exact ih hpath fun c hc => hleaf c (Content.mem_named_of_rest hchildren hc)
  | element data tag inner gap rest ihinner ih =>
    have hchildren : (Content.element data tag inner gap rest).children =
        (tag.localName, inner) :: rest.children := rfl
    rw [Content.events, follow_charData (hquiet hpath), follow_listed hpath,
      ih (p := p.collect _) hpath, ← collect_append, listedTexts_cons hchildren]
    · intro c hc
      exact hleaf c (Content.mem_named_of_rest hchildren hc)
    · intro hname
      exact hleaf inner (Content.mem_named_of_child hchildren hname)

/-! ## 4. The elements of `hello` -/

def helloPath : List (List Char) := ["hello".toList]

def Progress.child (p : Progress) (child : List Char × Content) : Except Refusal Progress :=
  if child.1 = "capabilities".toList then
    .ok (Progress.collect { p with hasCapabilities := true } (listedTexts child.2))
  else if child.1 = "session-id".toList then p.identify child.2.text?
  else .ok p

theorem beside_helloPath {name : List Char} (hlist : name ≠ "capabilities".toList)
    (hid : name ≠ "session-id".toList) : Beside (name :: helloPath) := by
  constructor
  · simp [helloPath]
  · intro hsuffix
    rcases List.suffix_cons_iff.mp hsuffix with heq | hback
    · have hlength := congrArg List.length heq
      simp [helloPath] at hlength
    · exact hlist (List.cons.inj (hback.eq_of_length rfl)).1
  · intro hsuffix
    have heq := hsuffix.eq_of_length rfl
    exact hid (List.cons.inj heq).1

theorem listsCapabilities_of_helloPath (hpath : p.path = helloPath) (name : List Char) :
    p.listsCapabilities name = (p.hasCapabilities || name == "capabilities".toList) := by
  rw [Progress.listsCapabilities, hpath]
  rfl

theorem path_identify {text : Option (List Char)} (h : p.identify text = .ok q) :
    q.path = p.path := by
  cases text with
  | none =>
    cases h
    rfl
  | some text =>
    unfold Progress.identify at h
    dsimp only at h
    split at h
    · cases h
      rfl
    · cases h

theorem path_child {child : List Char × Content} (h : p.child child = .ok q) :
    q.path = p.path := by
  unfold Progress.child at h
  split at h
  · cases h
    rfl
  · split at h
    · exact path_identify h
    · cases h
      rfl

/-- **What an element inside `hello` does, the events do.** -/
theorem follow_child (hpath : p.path = helloPath)
    (hlist : tag.localName = "capabilities".toList →
      ∀ c ∈ inner.named "capability".toList, c.isLeaf = true)
    (hid : tag.localName = "session-id".toList → inner.isLeaf = true) :
    p.follow (.event (.opening tag.content) (inner.events (.event .closing es))) =
      p.child (tag.localName, inner) >>= (·.follow es) := by
  have hne : p.path ≠ [] := hpath ▸ List.cons_ne_nil _ _
  have henter : ∀ name, name ≠ "capabilities".toList →
      p.enter name = { p with path := name :: p.path } := by
    intro name hname
    rw [Progress.enter, listsCapabilities_of_helloPath hpath, beq_eq_false_iff_ne.mpr hname,
      Bool.or_false]
  rw [follow_start hne, Progress.child]
  dsimp only
  split
  · next hname =>
    rw [follow_list (by rw [hname, Progress.enter, hpath]; rfl) (hlist hname), Progress.enter,
      listsCapabilities_of_helloPath hpath, hname, beq_self_eq_true, Bool.or_true]
    exact follow_leave (p := p) hne rfl es
  · next hname =>
    rw [henter tag.localName hname]
    split
    · next hname' =>
      cases inner with
      | last data =>
        rw [Content.events, follow_sessionIdText (by rw [hname', hpath]; rfl)]
        -- what is read does not depend on the path, and the end tag restores it
        cases (Content.last data).text? with
        | none => exact follow_leave (p := p) hne rfl es
        | some text =>
          unfold Progress.identify
          dsimp only
          split
          · exact follow_leave (p := p) hne rfl es
          · rfl
      | aside | empty | element => exact absurd (hid hname') (by simp [Content.isLeaf])
    · next hname' =>
      rw [follow_beside (by rw [hpath]; exact beside_helloPath hname hname')]
      exact follow_leave (p := p) hne rfl es

theorem follow_emptyChild (hpath : p.path = helloPath) :
    p.follow (.event (.empty tag.content) es) =
      p.child (tag.localName, .nothing) >>= (·.follow es) := by
  have hne : p.path ≠ [] := hpath ▸ List.cons_ne_nil _ _
  rw [follow_emptyElement hne, listsCapabilities_of_helloPath hpath, Progress.child]
  dsimp only
  split
  · next hname =>
    rw [hname, beq_self_eq_true, Bool.or_true]
    rfl
  · next hname =>
    rw [beq_eq_false_iff_ne.mpr hname, Bool.or_false]
    split
    · rfl
    · rfl

/-- **Inside `hello` the events do what the elements do**, one after the other. -/
theorem follow_hello (hpath : p.path = helloPath) (hleaves : Leaves content) :
    p.follow (content.events es) =
      content.children.foldlM Progress.child p >>= (·.follow es) := by
  have hquiet : ∀ {path : List (List Char)}, path = helloPath → Quiet path := by
    rintro path rfl
    decide
  -- the rest is followed from where its first element has led
  have hstep : ∀ {rest : Content} {child : List Char × Content} {p : Progress} {es : Events},
      p.path = helloPath →
      (∀ {q : Progress}, q.path = helloPath →
        q.follow (rest.events es) = rest.children.foldlM Progress.child q >>= (·.follow es)) →
      (p.child child >>= (·.follow (rest.events es))) =
        (child :: rest.children).foldlM Progress.child p >>= (·.follow es) := by
    intro rest child p es hpath hrest
    rw [List.foldlM_cons, bind_assoc]
    cases hchild : p.child child with
    | error refusal => rfl
    | ok q => exact hrest ((path_child hchild).trans hpath)
  induction content generalizing p es with
  | last data => exact follow_charData (hquiet hpath)
  | aside data a rest ih =>
    rw [Content.events, follow_charData (hquiet hpath), follow_ignored]
    exact ih hpath ⟨hleaves.capability, hleaves.sessionId⟩
  | empty data tag rest ih =>
    have hchildren : (Content.empty data tag rest).children =
        (tag.localName, .nothing) :: rest.children := rfl
    rw [Content.events, follow_charData (hquiet hpath), follow_emptyChild hpath, hchildren]
    exact hstep hpath fun hq => ih hq (hleaves.rest hchildren)
  | element data tag inner gap rest ihinner ih =>
    have hchildren : (Content.element data tag inner gap rest).children =
        (tag.localName, inner) :: rest.children := rfl
    rw [Content.events, follow_charData (hquiet hpath), follow_child hpath, hchildren]
    · exact hstep hpath fun hq => ih hq (hleaves.rest hchildren)
    · intro hname
      exact hleaves.capability inner (Content.mem_named_of_child hchildren hname)
    · intro hname
      exact hleaves.sessionId inner (Content.mem_named_of_child hchildren hname)

/-! ## 5. What the elements of `hello` come to -/

theorem identify_of_readId {text : List Char} {id : Nat} (h : readId text = some id) :
    p.identify (some text) = .ok { p with sessionId := some id } := by
  unfold readId at h
  unfold Progress.identify
  dsimp only
  split
  · next id' hread =>
    rw [hread] at h
    cases h
    rfl
  · next cause hread =>
    rw [hread] at h
    cases h

theorem identify_of_unreadable {text : List Char} (h : readId text = none) :
    ∃ refusal, p.identify (some text) = .error refusal := by
  unfold readId at h
  unfold Progress.identify
  dsimp only
  split
  · next id hread =>
    rw [hread] at h
    cases h
  · exact ⟨_, rfl⟩

variable {children : List (List Char × Content)}

/-- What elements inside `hello` make of what was read before them. -/
def Progress.heard (p : Progress) (children : List (List Char × Content)) : Progress where
  path := p.path
  sessionId := (textsIn "session-id".toList children).getLast?.elim p.sessionId readId
  texts := (((namedIn "capabilities".toList children).flatMap listedTexts).map
    (trimWhile isMarkupBlank)).reverse ++ p.texts
  hasCapabilities := p.hasCapabilities || !(namedIn "capabilities".toList children).isEmpty

theorem heard_nil (p : Progress) : p.heard [] = p := by
  unfold Progress.heard textsIn namedIn
  simp

/-- The last of two parts counts, where there is one in it. -/
theorem elim_getLast?_append {α β : Type} (front back : List α) (default : β) (f : α → β) :
    (front ++ back).getLast?.elim default f =
      back.getLast?.elim (front.getLast?.elim default f) f := by
  rw [List.getLast?_append]
  cases back.getLast? <;> rfl

theorem heard_append (p : Progress) (front back : List (List Char × Content)) :
    p.heard (front ++ back) = (p.heard front).heard back := by
  unfold Progress.heard
  dsimp only
  rw [namedIn_append, textsIn_append, elim_getLast?_append]
  generalize namedIn "capabilities".toList front = lists
  generalize namedIn "capabilities".toList back = more
  simp only [List.flatMap_append, List.map_append, List.reverse_append, List.append_assoc,
    Progress.mk.injEq, true_and]
  cases lists <;> cases more <;> simp

theorem child_of_readable {child : List Char × Content}
    (h : ∀ text ∈ textsIn "session-id".toList [child], readId text ≠ none) :
    p.child child = .ok (p.heard [child]) := by
  unfold Progress.child Progress.heard
  rw [textsIn_singleton] at h ⊢
  rw [namedIn_singleton]
  split
  · next hlist =>
    rw [hlist, if_neg (by decide), Progress.collect, List.flatMap_singleton, List.isEmpty_cons,
      Bool.not_false, Bool.or_true]
    rfl
  · split at h
    · next hid =>
      rw [if_pos hid, if_pos hid, List.isEmpty_nil, Bool.not_true, Bool.or_false]
      cases htext : child.2.text? with
      | none => rfl
      | some text =>
        obtain ⟨id, hread⟩ := Option.ne_none_iff_exists'.mp (h text (by rw [htext]; simp))
        rw [identify_of_readId hread, Option.toList_some, List.getLast?_singleton, Option.elim_some,
          hread]
        rfl
    · next hid =>
      rw [if_neg hid, if_neg hid, List.isEmpty_nil, Bool.not_true, Bool.or_false]
      rfl

theorem child_of_unreadable {child : List Char × Content}
    (h : ∃ text ∈ textsIn "session-id".toList [child], readId text = none) :
    ∃ refusal, p.child child = .error refusal := by
  obtain ⟨text, hmem, hread⟩ := h
  rw [textsIn_singleton] at hmem
  split at hmem
  · next hid =>
    rw [Progress.child, hid, if_neg (by decide), if_pos rfl, Option.mem_toList.mp hmem]
    exact identify_of_unreadable hread
  · exact absurd hmem List.not_mem_nil

/-- **Elements with readable session identifiers are heard to the end.** -/
theorem foldlM_child_of_readable
    (h : ∀ text ∈ textsIn "session-id".toList children, readId text ≠ none) :
    children.foldlM Progress.child p = .ok (p.heard children) := by
  induction children generalizing p with
  | nil =>
    rw [heard_nil]
    rfl
  | cons child children ih =>
    rw [← List.singleton_append, textsIn_append] at h
    rw [List.foldlM_cons, child_of_readable fun text ht => h text (List.mem_append_left _ ht)]
    refine (ih fun text ht => h text (List.mem_append_right _ ht)).trans ?_
    rw [← heard_append, List.singleton_append]

/-- **An unreadable session identifier is refused.** -/
theorem foldlM_child_of_unreadable
    (h : ∃ text ∈ textsIn "session-id".toList children, readId text = none) :
    ∃ refusal, children.foldlM Progress.child p = .error refusal := by
  induction children generalizing p with
  | nil => simp [textsIn, namedIn] at h
  | cons child children ih =>
    obtain ⟨text, hmem, hread⟩ := h
    rw [← List.singleton_append, textsIn_append] at hmem
    rw [List.foldlM_cons]
    by_cases hfirst : ∃ text ∈ textsIn "session-id".toList [child], readId text = none
    · obtain ⟨refusal, hrefused⟩ := child_of_unreadable (p := p) hfirst
      exact ⟨refusal, by rw [hrefused]; rfl⟩
    · have hreadable : ∀ text ∈ textsIn "session-id".toList [child], readId text ≠ none := by
        intro text ht hnone
        exact hfirst ⟨text, ht, hnone⟩
      have hrest : text ∈ textsIn "session-id".toList children :=
        (List.mem_append.mp hmem).resolve_left fun ht => hreadable text ht hread
      rw [child_of_readable hreadable]
      exact ih ⟨text, hrest, hread⟩

/-! ## 6. The greeting -/

/-- Capabilities that are read are added one after the other, and the others are left out. -/
theorem insertReadable_map (set : CapabilitySet) (texts : List (List Char)) :
    insertReadable set (texts.map (trimWhile isMarkupBlank)) =
      (texts.filterMap readCapability).foldl CapabilitySet.insert set := by
  induction texts generalizing set with
  | nil => rfl
  | cons text texts ih =>
    rw [List.map_cons, insertReadable, trim_trimWhile, List.filterMap_cons, readCapability,
      Capability.parse, String.toList_ofList]
    cases Capability.ofTrimmed (trim text) with
    | ok c => exact ih (set.insert c)
    | error fault => exact ih set

theorem follow_prolog (prolog : List (Gap × Aside)) (es : Events) :
    p.follow (prolog.foldr (fun _ es => .event .ignored es) es) = p.follow es := by
  induction prolog with
  | nil => rfl
  | cons part prolog ih => rw [List.foldr_cons, follow_ignored, ih]

/-- What is known behind the start tag of `hello`. -/
def opened : Progress := ⟨helloPath, none, [], false⟩

theorem follow_document {d : Document} (hroot : d.root.localName = "hello".toList)
    (hleaves : Leaves d.inner) :
    Progress.start.follow (d.events es) =
      d.inner.children.foldlM Progress.child opened >>= (·.follow (.event .closing es)) := by
  have hopening : Progress.start.take (.opening d.root.content) = .ok opened := by
    rw [Progress.take, d.root.tagName_content]
    exact (congrArg Progress.start.opening hroot).trans rfl
  rw [Document.events, follow_prolog, follow_event (.opening d.root.content) (by simp) hopening,
    follow_hello rfl hleaves]

theorem ofEvents_of_readable {d : Document} (hroot : d.root.localName = "hello".toList)
    (hleaves : Leaves d.inner) (h : ∀ text ∈ sessionIdTexts d.inner, readId text ≠ none) :
    ofEvents (d.events es) =
      if d.inner.named "capabilities".toList = [] then .error .noCapabilities
      else .ok ⟨(sessionIdTexts d.inner).getLast?.bind readId,
        ((capabilityTexts d.inner).filterMap readCapability).foldl CapabilitySet.insert .empty⟩ := by
  have hfollow : Progress.start.follow (d.events es) =
      .ok { opened.heard d.inner.children with path := [] } := by
    rw [follow_document hroot hleaves, foldlM_child_of_readable h]
    rfl
  have hid : (opened.heard d.inner.children).sessionId =
      (sessionIdTexts d.inner).getLast?.bind readId := by
    change (sessionIdTexts d.inner).getLast?.elim none readId = _
    cases (sessionIdTexts d.inner).getLast? <;> rfl
  have htexts : (opened.heard d.inner.children).texts.reverse =
      (capabilityTexts d.inner).map (trimWhile isMarkupBlank) := by
    change (((capabilityTexts d.inner).map (trimWhile isMarkupBlank)).reverse ++ []).reverse = _
    rw [List.append_nil, List.reverse_reverse]
  have hlists : (opened.heard d.inner.children).hasCapabilities =
      !(d.inner.named "capabilities".toList).isEmpty := rfl
  rw [ofEvents, hfollow]
  dsimp only
  rw [ofProgress, hlists, hid, htexts, insertReadable_map]
  cases d.inner.named "capabilities".toList <;> rfl

theorem ofEvents_of_unreadable {d : Document} (hroot : d.root.localName = "hello".toList)
    (hleaves : Leaves d.inner) (h : ∃ text ∈ sessionIdTexts d.inner, readId text = none) :
    ∃ refusal, ofEvents (d.events es) = .error refusal := by
  obtain ⟨refusal, hrefused⟩ := foldlM_child_of_unreadable (p := opened) h
  refine ⟨refusal, ?_⟩
  rw [ofEvents, follow_document hroot hleaves, hrefused]
  rfl

/-- **A greeting says what its tree says.**  Reading it fails exactly if there is no list of
    capabilities or a session identifier cannot be read; otherwise the identifier is the last
    one, and the capabilities are those that can be read, in document order. -/
theorem parse_document (d : Document) (hroot : d.root.localName = "hello".toList)
    (hleaves : Leaves d.inner) :
    ((∃ fault, parse (String.ofList d.written) = .error fault) ↔
      d.inner.named "capabilities".toList = [] ∨
        ∃ text ∈ sessionIdTexts d.inner, readId text = none) ∧
    ∀ greeting, parse (String.ofList d.written) = .ok greeting →
      greeting.sessionId = (sessionIdTexts d.inner).getLast?.bind readId ∧
        greeting.capabilities =
          ((capabilityTexts d.inner).filterMap readCapability).foldl CapabilitySet.insert .empty := by
  rw [parse, String.toList_ofList, events_document]
  by_cases h : ∃ text ∈ sessionIdTexts d.inner, readId text = none
  · obtain ⟨refusal, hrefused⟩ := ofEvents_of_unreadable hroot hleaves h
    rw [hrefused]
    refine ⟨⟨fun _ => Or.inr h, fun _ => ⟨_, rfl⟩⟩, ?_⟩
    intro greeting hok
    cases hok
  · have hreadable : ∀ text ∈ sessionIdTexts d.inner, readId text ≠ none := by
      intro text ht hnone
      exact h ⟨text, ht, hnone⟩
    rw [ofEvents_of_readable hroot hleaves hreadable]
    by_cases hlists : d.inner.named "capabilities".toList = []
    · rw [if_pos hlists]
      refine ⟨⟨fun _ => Or.inl hlists, fun _ => ⟨_, rfl⟩⟩, ?_⟩
      intro greeting hok
      cases hok
    · rw [if_neg hlists]
      constructor
      · constructor
        · rintro ⟨fault, ⟨⟩⟩
        · rintro (hnone | hunreadable)
          · exact absurd hnone hlists
          · exact absurd hunreadable h
      · rintro greeting ⟨⟩
        exact ⟨rfl, rfl⟩

/-- A start tag with a prefix and a quoted `>`. -/
def sampleRoot : Tag where
  name := ⟨"nc:hello".toList, by decide, by decide⟩
  attributes := [⟨⟨[' '], by decide⟩, by decide, ⟨"xmlns:nc".toList, by decide, by decide⟩,
    .none, .none, '\'', Or.inr rfl, "a>b".toList, by decide⟩]
  gap := .none

/-- An element with a text and nothing else inside. -/
def sampleLeaf (name : Name) (text : String) (rest : Content) : Content :=
  .element (.of []) (.bare name) (.last (.of text.toList)) ⟨[' '], by decide⟩ rest

def sampleCapability : Name := ⟨"nc:capability".toList, by decide, by decide⟩

def sampleId : Name := ⟨"session-id".toList, by decide, by decide⟩

/-- A capability, one inside another element, which does not count, and an empty one. -/
def sampleList : Content :=
  sampleLeaf sampleCapability " :url?scheme=<file>&v=1 "
    (.element (.of []) (.bare ⟨"other".toList, by decide, by decide⟩)
      (sampleLeaf sampleCapability ":xpath" .nothing) .none
      (.empty (.of "\t".toList) (.bare sampleCapability) .nothing))

/-- A greeting with comments and two session identifiers, one of them blank. -/
def sampleGreeting : Document where
  prolog := [(.none, .instruction "xml".toList (by decide) (by decide))]
  lead := ⟨['\n'], by decide⟩
  root := sampleRoot
  inner :=
    .element (.of "\n".toList) (.bare ⟨"capabilities".toList, by decide, by decide⟩) sampleList .none
      (.aside (.of "text".toList) (.comment ">".toList (by decide))
        (sampleLeaf sampleId " 7\n" (sampleLeaf sampleId "\n" .nothing)))
  gap := .none
  behind := "<hello>".toList

theorem parse_document_prefixed :
    (sampleGreeting.root.localName = "hello".toList ∧ Leaves sampleGreeting.inner) ∧
      ∃ greeting, parse (String.ofList sampleGreeting.written) = .ok greeting ∧
        greeting.sessionId = some 7 ∧
        greeting.capabilities.entries =
          [⟨"urn:ietf:params:netconf:capability:url:1.0",
            Dictionary.ofPairs [("scheme", "<file>"), ("v", "1")]⟩] := by
  have hroot : sampleGreeting.root.localName = "hello".toList := by decide
  have hleaves : Leaves sampleGreeting.inner := ⟨by decide, by decide⟩
  obtain ⟨hfails, hreads⟩ := parse_document sampleGreeting hroot hleaves
  refine ⟨⟨hroot, hleaves⟩, ?_⟩
  cases hparse : parse (String.ofList sampleGreeting.written) with
  | error fault =>
    have hcause := hfails.mp ⟨fault, hparse⟩
    exact absurd hcause (by decide +kernel)
  | ok greeting =>
    obtain ⟨hid, hcapabilities⟩ := hreads greeting hparse
    refine ⟨greeting, rfl, hid.trans (by decide +kernel), ?_⟩
    rw [hcapabilities]
    decide +kernel

end NetconfClient.Greeting
