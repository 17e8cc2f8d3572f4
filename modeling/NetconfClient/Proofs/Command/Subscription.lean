/-
  NetconfClient/Proofs/Command/Subscription.lean
  ==============================================
  **Which stream a subscription asks for.**

  The name of the stream is put into the request as it was given.  Without `<` and
  `&` it is read back from its element, whatever the filter is (`asksFor_of_plain`).
  With one of them it is not: there would have to be as much text in the element as
  was written, but an entity or markup stands for less than it takes, and the three
  end tags behind the name leave no room for more (`plain_of_asksFor`).
-/
import NetconfClient.Command.Subscription
import NetconfClient.Proofs.Markup.Nodes
import NetconfClient.Proofs.Message.Envelope

namespace NetconfClient.Command

open Text Markup Envelope RootTag

/-! ## 1. The request as markup -/

def operationName : Name := ⟨"create-subscription".toList, by decide, by decide⟩

def streamName : Name := ⟨"stream".toList, by decide, by decide⟩

def filterName : Name := ⟨"filter".toList, by decide, by decide⟩

def typeName : Name := ⟨"type".toList, by decide, by decide⟩

/-- The start tag of the operation; its namespace is declared as that of messages is. -/
def operationTag : Tag where
  name := operationName
  attributes := [{ namespaceAttribute.toQuotedAttribute with
    value := notificationNamespace.toList, unquoted := by decide }]
  gap := .none

def filterTag : Tag where
  name := filterName
  attributes := [{ namespaceAttribute.toQuotedAttribute with
    key := typeName, value := "subtree".toList, unquoted := by decide }]
  gap := .none

def rpcTag (id : String) : Tag := tagOf rpcName [idAttribute id, namespaceAttribute] .none

/-- The end tag of an element. -/
def endTag (name : Name) : List Char := '<' :: '/' :: (name.chars ++ ['>'])

theorem getLast?_endTag (name : Name) : (endTag name).getLast? = some '>' :=
  @List.getLast?_concat _ ('<' :: '/' :: name.chars) '>'

/-- What stands behind the name of the stream. -/
def behindStream (filter : Option String) : List Char :=
  endTag streamName ++ ((renderFilter filter).toList ++ (endTag operationName ++ endTag rpcName))

theorem events_close (name : Name) (opened : List (List Char)) (rest : List Char) :
    Reader.events .kept ⟨name.chars :: opened, endTag name ++ rest⟩ =
      .event .closing (Reader.events .kept ⟨opened, rest⟩) := by
  have hclose := @events_endTag .kept opened (Tag.bare name) .none rest
  simpa [endTag, Tag.bare, Gap.none] using hclose

theorem toList_createSubscription (stream : String) (filter : Option String) :
    (createSubscription stream filter).toList =
      '<' :: (operationTag.content ++ '>' :: '<' :: ((Tag.bare streamName).content ++
        '>' :: (stream.toList ++ (endTag streamName ++
          ((renderFilter filter).toList ++ endTag operationName))))) := by
  have hopen : ("<create-subscription xmlns=\"" ++ notificationNamespace ++ "\"><stream>").toList =
      '<' :: (operationTag.content ++ '>' :: '<' :: ((Tag.bare streamName).content ++ ['>'])) := rfl
  have hstream : "</stream>".toList = endTag streamName := rfl
  have hoperation : "</create-subscription>".toList = endTag operationName := rfl
  unfold createSubscription
  rw [String.toList_append, String.toList_append, String.toList_append, String.toList_append,
    hopen, hstream, hoperation]
  simp only [List.append_assoc, List.cons_append, List.nil_append]

theorem toList_renderFilter (filter : String) : (renderFilter (some filter)).toList =
    '<' :: (filterTag.content ++ '>' :: (trim filter.toList ++ endTag filterName)) := by
  have hopen : "<filter type=\"subtree\">".toList = '<' :: (filterTag.content ++ ['>']) := rfl
  have hclose : "</filter>".toList = endTag filterName := rfl
  unfold renderFilter
  rw [String.toList_append, String.toList_append, hopen, hclose, toList_trimString]
  simp only [List.append_assoc, List.cons_append, List.nil_append]

/-- The operation has no blanks at its ends, so all of it goes into the envelope. -/
theorem trim_createSubscription (stream : String) (filter : Option String) :
    trim (createSubscription stream filter).toList = (createSubscription stream filter).toList := by
  have hlast : (createSubscription stream filter).toList.getLast? = some '>' := by
    have hfront := toList_createSubscription stream filter
    simp only [← List.append_assoc, ← List.cons_append] at hfront
    rw [hfront, List.getLast?_append, getLast?_endTag, Option.some_or]
  apply trimWhile_eq_self
  · intro c hc
    rw [toList_createSubscription] at hc
    cases hc
    decide
  · intro c hc
    rw [hlast] at hc
    cases hc
    decide

variable {id stream : String} {filter : Option String}

/-- **A request is three start tags, and in the third element the name of the stream.** -/
theorem events_request (id stream : String) (filter : Option String) :
    events .kept (rpcEnvelope id (createSubscription stream filter)).toList =
      .event (.opening (rpcTag id).content) (.event (.opening operationTag.content)
        (.event (.opening (Tag.bare streamName).content)
          (Reader.events .kept ⟨[streamName.chars, operationName.chars, rpcName.chars],
            stream.toList ++ behindStream filter⟩))) := by
  have hclose : "</rpc>".toList = endTag rpcName := rfl
  have hmark : ¬ '<' = byteOrderMark := by decide
  rw [toList_rpcEnvelope, trim_createSubscription, toList_createSubscription, hclose, events,
    if_neg hmark]
  simp only [List.append_assoc, List.cons_append, List.nil_append]
  exact (events_tag (rpcTag id) _).trans (congrArg _ ((events_tag operationTag _).trans
    (congrArg _ (events_tag (Tag.bare streamName) _))))

/-! ## 2. What a request asks for -/

/-- The document is read as an `rpc` element with one child, a `create-subscription` element,
    whose first child is a `stream` element with this text and no elements in it.  The other
    children are given with their names and with what is inside them. -/
def AsksFor (document stream : String) (others : List (List Char × Nodes)) : Prop :=
  ∃ root message operation name : Nodes,
    (∀ nodes, Forms (events .kept document.toList) nodes .finished ↔ nodes = root) ∧
    root.elements = [("rpc".toList, message)] ∧
    message.elements = [("create-subscription".toList, operation)] ∧
    operation.elements = ("stream".toList, name) :: others ∧
    name.elements = [] ∧ name.chars = stream.toList

/-- What a filter adds to a request.  Its text, without the blanks around it, has to be the
    content of an element: it is read up to the end tag that is put behind it. -/
inductive Adds : Option String → List (List Char × Nodes) → Prop
  | nothing : Adds none []
  | filter {text : String} {inner : Nodes}
      (h : Forms (Reader.events .kept ⟨["filter".toList],
        trim text.toList ++ "</filter>".toList⟩) inner (.event .closing .finished)) :
      Adds (some text) [("filter".toList, inner)]

/-- Plain text in front of an end tag is a node of its own, unless it is empty. -/
theorem forms_plain {data : List Char} (hlt : '<' ∉ data) (hamp : '&' ∉ data) (close : Name)
    (opened : List (List Char)) (rest : List Char) :
    ∃ nodes : Nodes, nodes.elements = [] ∧ nodes.chars = data ∧
      Forms (Reader.events .kept ⟨close.chars :: opened, data ++ (endTag close ++ rest)⟩) nodes
        (.event .closing (Reader.events .kept ⟨opened, rest⟩)) := by
  have hclose := events_close close opened rest
  by_cases hne : data = []
  · subst hne
    refine ⟨.none, rfl, rfl, ?_⟩
    rw [List.nil_append, hclose]
    exact .none _
  · refine ⟨.text data .none, rfl, List.append_nil data, ?_⟩
    rw [show endTag close ++ rest = '<' :: ('/' :: (close.chars ++ ['>']) ++ rest) from rfl,
      events_kept_text hlt hne, ← List.cons_append]
    refine .text (unescape_eq_ok_iff.mpr (standsFor_self hamp)) ?_
    rw [show '<' :: '/' :: (close.chars ++ ['>']) = endTag close from rfl, hclose]
    exact .none _

theorem endsMarkup_endTag (front : List Char) (name : Name) : EndsMarkup (front ++ endTag name) := by
  intro c hc
  rw [List.getLast?_append, getLast?_endTag, Option.some_or] at hc
  exact (Option.some.inj hc).symm

/-- **A filter that is content by itself is content in a request.** -/
theorem forms_filter {others : List (List Char × Nodes)} (h : Adds filter others) (close : Name)
    (opened : List (List Char)) (rest : List Char) :
    ∃ nodes : Nodes, nodes.elements = others ∧
      Forms (Reader.events .kept ⟨close.chars :: opened,
          (renderFilter filter).toList ++ (endTag close ++ rest)⟩) nodes
        (.event .closing (Reader.events .kept ⟨opened, rest⟩)) := by
  have hclose := events_close close opened rest
  cases h with
  | nothing =>
    refine ⟨.none, rfl, ?_⟩
    rw [show (renderFilter none).toList = [] from rfl, List.nil_append, hclose]
    exact .none _
  | @filter text inner hforms =>
    obtain ⟨name, next, hnext, hopened, hsuffix, hwithin⟩ :=
      hforms.within rfl (endsMarkup_endTag _ filterName)
    -- nothing is left behind the end tag
    have hrest : next.rest = [] :=
      rest_of_finished hnext.symm ((endsMarkup_endTag _ filterName).suffix hsuffix)
    have hnone : next.opened = [] := (List.cons.inj hopened).2.symm
    have hinner := hwithin (close.chars :: opened) (endTag close ++ rest)
    rw [hrest, hnone, List.nil_append, List.nil_append, hclose] at hinner
    refine ⟨.element "filter".toList inner .none, rfl, ?_⟩
    rw [toList_renderFilter, List.cons_append, List.append_assoc, List.cons_append, events_tag]
    exact .element hinner (.none _)

/-! ## 3. When it asks for the stream that was given -/

/-- **Plain text names a stream**, whatever the filter is. -/
theorem asksFor_of_plain {others : List (List Char × Nodes)} (h : Adds filter others)
    (hlt : '<' ∉ stream.toList) (hamp : '&' ∉ stream.toList) :
    AsksFor (rpcEnvelope id (createSubscription stream filter)) stream others := by
  obtain ⟨name, hname, hchars, hstream⟩ := forms_plain hlt hamp streamName
    [operationName.chars, rpcName.chars]
    ((renderFilter filter).toList ++ (endTag operationName ++ endTag rpcName))
  obtain ⟨more, hmore, hfilter⟩ := forms_filter h operationName [rpcName.chars] (endTag rpcName)
  have hend : Forms (Reader.events .kept ⟨[rpcName.chars], endTag rpcName⟩) .none
      (.event .closing .finished) := by
    have hclose := events_close rpcName [] []
    rw [List.append_nil, events_nil] at hclose
    rw [hclose]
    exact .none _
  let operation : Nodes := .element (tagName (Tag.bare streamName).content) name more
  let message : Nodes := .element (tagName operationTag.content) operation .none
  let root : Nodes := .element (tagName (rpcTag id).content) message .none
  have hforms : Forms (events .kept (rpcEnvelope id (createSubscription stream filter)).toList)
      root .finished := by
    rw [events_request]
    exact .element (.element (.element hstream hfilter) hend) (.none _)
  refine ⟨root, message, operation, name, ?_, ?_, ?_, ?_, hname, hchars⟩
  · intro nodes
    constructor
    · intro hnodes
      exact (hnodes.unique hforms trivial trivial).1
    · rintro rfl
      exact hforms
  · rw [Nodes.elements, (rpcTag id).tagName_content]
    rfl
  · rw [Nodes.elements, operationTag.tagName_content]
    rfl
  · rw [Nodes.elements, (Tag.bare streamName).tagName_content, hmore]
    rfl

/-- **Other text does not**: where it is read back, it is plain. -/
theorem plain_of_asksFor (h : AsksFor (rpcEnvelope id (createSubscription stream none)) stream []) :
    '<' ∉ stream.toList ∧ '&' ∉ stream.toList := by
  obtain ⟨root, message, operation, name, hread, hrpc, hmessage, hoperation, hname, hchars⟩ := h
  have hroot := (hread root).mpr rfl
  rw [events_request] at hroot
  obtain ⟨_, _, _, rfl, hinner, -⟩ := hroot.of_opening trivial
  simp only [Nodes.elements, List.cons.injEq, Prod.mk.injEq] at hrpc
  obtain ⟨⟨-, rfl⟩, -⟩ := hrpc
  obtain ⟨_, behind, _, rfl, hinner, hbehind⟩ := hinner.of_opening trivial
  simp only [Nodes.elements, List.cons.injEq, Prod.mk.injEq] at hmessage
  obtain ⟨⟨-, rfl⟩, hnone⟩ := hmessage
  obtain ⟨_, others, _, rfl, hinner, hothers⟩ := hinner.of_opening trivial
  simp only [Nodes.elements, List.cons.injEq, Prod.mk.injEq] at hoperation
  obtain ⟨⟨-, rfl⟩, hnone'⟩ := hoperation
  -- three end tags have to follow the name of the stream, and they are as long as what does
  have hends : EndsMarkup (stream.toList ++ behindStream none) := by
    rw [behindStream, ← List.append_assoc, ← List.append_assoc, ← List.append_assoc]
    exact endsMarkup_endTag _ rpcName
  obtain ⟨_, afterStream, rfl, hopened, hsuffix, hle, hwritten⟩ :=
    hinner.length_of_closed rfl hname hends
  obtain ⟨rfl, hleft⟩ := List.cons.inj hopened
  obtain ⟨_, afterOperation, rfl, hopened', hsuffix', hle', -⟩ :=
    hothers.length_of_closed rfl hnone' (hends.suffix hsuffix)
  obtain ⟨rfl, hleft'⟩ := List.cons.inj (hleft.trans hopened')
  obtain ⟨_, afterRpc, -, hopened'', -, hle'', -⟩ :=
    hbehind.length_of_closed rfl hnone ((hends.suffix hsuffix).suffix hsuffix')
  obtain ⟨rfl, -⟩ := List.cons.inj (hleft'.trans hopened'')
  have hlength : (behindStream none).length =
      streamName.chars.length + 3 + (operationName.chars.length + 3 + (rpcName.chars.length + 3)) :=
    rfl
  rw [hchars] at hle hwritten
  simp only [List.length_append] at hle hwritten
  obtain ⟨written, back, hsplit, hback, hlt, hamp⟩ := hwritten (by omega)
  obtain ⟨rfl, -⟩ := List.append_inj' hsplit (by omega)
  exact ⟨hlt, hamp⟩

/-- **A request asks for the stream that was given exactly if its name is plain text.**  A
    name with a `<` or an `&` in it is read as something else, or not at all.  A plain name
    is read back with every filter that is content by itself. -/
theorem names_plain_streams (id stream : String) :
    (AsksFor (rpcEnvelope id (createSubscription stream none)) stream [] ↔
      '<' ∉ stream.toList ∧ '&' ∉ stream.toList) ∧
    ∀ filter others, Adds filter others → '<' ∉ stream.toList → '&' ∉ stream.toList →
      AsksFor (rpcEnvelope id (createSubscription stream filter)) stream others := by
  constructor
  · constructor
    · exact plain_of_asksFor
    · rintro ⟨hlt, hamp⟩
      exact asksFor_of_plain .nothing hlt hamp
  · intro filter others hadds hlt hamp
    exact asksFor_of_plain hadds hlt hamp

def topName : Name := ⟨"top".toList, by decide, by decide⟩

/-- A name with a `>` in it, and a filter with blanks around it. -/
theorem names_plain_streams_filtered :
    AsksFor (rpcEnvelope "1" (createSubscription "a > b" (some " <top/>\n"))) "a > b"
      [("filter".toList, .element "top".toList .none .none)] := by
  have hadds : Adds (some " <top/>\n") [("filter".toList, .element "top".toList .none .none)] := by
    have htrim : trim " <top/>\n".toList ++ "</filter>".toList =
        '<' :: ((Tag.bare topName).content ++ '/' :: '>' :: (endTag filterName ++ [])) := by decide
    have hempty := @events_emptyTag .kept [filterName.chars] (Tag.bare topName) (endTag filterName ++ [])
    rw [events_close, events_nil] at hempty
    refine .filter ?_
    rw [htrim]
    exact hempty ▸ .empty (.none _)
  exact (names_plain_streams "1" "a > b").2 _ _ hadds (by decide) (by decide)

/-- **Markup in the name of a stream is markup in the request**, so not every name is asked for. -/
theorem markup_in_stream_is_read :
    ¬ ∀ (id stream : String) (filter : Option String) (others : List (List Char × Nodes)),
      Adds filter others →
        AsksFor (rpcEnvelope id (createSubscription stream filter)) stream others := by
  intro h
  have hplain := plain_of_asksFor (h "1" "a<b/>" none [] .nothing)
  exact hplain.1 (by decide)

end NetconfClient.Command
