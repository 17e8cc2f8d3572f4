/-
  NetconfClient/Proofs/Message/Envelope.lean
  ==========================================
  **The identifier of a request survives the wire.**

  An envelope is read back as an `rpc` element that carries the identifier and
  nothing else (`read_rpcEnvelope`), whatever the identifier holds.  A reply that
  repeats it as it was written is the reply to that request, whatever further
  attributes it has (`classify_reply`), and no identifier can end a frame
  (`id_survives`).
-/
import NetconfClient.Message.Envelope
import NetconfClient.Proofs.Dispatch.Delivery
import NetconfClient.Proofs.Framing.RoundTrip
import NetconfClient.Proofs.Message.RootTag
import NetconfClient.Proofs.Text.Dictionary

namespace NetconfClient.Envelope

open Text Markup RootTag Framing Framing.Terminated

variable {id : String} {others : List ReadableAttribute}

/-! ## 1. Requests -/

/-- A blank. -/
def blank : Gap := ⟨[' '], rfl⟩

/-- The attribute that carries an identifier. -/
def idAttribute (id : String) : ReadableAttribute where
  lead := blank
  lead_ne_nil := by decide
  key := ⟨"message-id".toList, by decide, by decide⟩
  before := .none
  behind := .none
  quote := '"'
  isQuote := .inl rfl
  value := escape id.toList
  unquoted := notMem_escape (by decide) (by decide) _
  text := id.toList
  reads := standsFor_escape id.toList

/-- The attribute that declares the namespace of messages. -/
def namespaceAttribute : ReadableAttribute where
  lead := blank
  lead_ne_nil := by decide
  key := ⟨"xmlns".toList, by decide, by decide⟩
  before := .none
  behind := .none
  quote := '"'
  isQuote := .inl rfl
  value := baseNamespace.toList
  unquoted := by decide
  text := baseNamespace.toList
  reads := by
    have hreads := standsFor_escape baseNamespace.toList
    have hplain : baseNamespace.toList.all (· ∉ reserved) = true := by decide
    rwa [escape_eq_self] at hreads
    intro c hc
    exact of_decide_eq_true (List.all_eq_true.mp hplain c hc)

def rpcName : Name := ⟨"rpc".toList, by decide, by decide⟩

theorem written_idAttribute (id : String) : (idAttribute id).written =
    ' ' :: ("message-id".toList ++ '=' :: '"' :: (escape id.toList ++ ['"'])) := rfl

theorem written_namespaceAttribute : namespaceAttribute.written =
    ' ' :: ("xmlns".toList ++ '=' :: '"' :: (baseNamespace.toList ++ ['"'])) := rfl

theorem toList_rpcEnvelope (id operation : String) :
    (rpcEnvelope id operation).toList =
      '<' :: ((tagOf rpcName [idAttribute id, namespaceAttribute] .none).content ++
        (['>'] ++ (trim operation.toList ++ "</rpc>".toList))) := by
  have hopen : "<rpc message-id=\"".toList =
      '<' :: ("rpc".toList ++ ' ' :: ("message-id".toList ++ ['=', '"'])) := rfl
  have hnext : "\" xmlns=\"".toList = '"' :: ' ' :: ("xmlns".toList ++ ['=', '"']) := rfl
  have hclose : "\">".toList = ['"', '>'] := rfl
  have hcontent : (tagOf rpcName [idAttribute id, namespaceAttribute] .none).content =
      "rpc".toList ++ ((idAttribute id).written ++ (namespaceAttribute.written ++ [])) := by
    rw [List.append_nil]
    simp [tagOf, Tag.content, Tag.behindName, rpcName, Gap.none]
  rw [hcontent, written_idAttribute, written_namespaceAttribute]
  unfold rpcEnvelope escapeString
  simp only [String.toList_append, String.toList_ofList, toList_trimString, hopen, hnext, hclose,
    List.append_assoc, List.cons_append, List.nil_append, List.append_nil]

theorem pair?_idAttribute (id : String) : (idAttribute id).pair? = some ("message-id", id) := by
  have hkey : ¬ declaresNamespace "message-id".toList = true := by decide
  have hname : String.ofList (Markup.localName "message-id".toList) = "message-id" := by decide
  have hid : String.ofList (idAttribute id).text = id := String.ofList_toList
  rw [ReadableAttribute.pair?, hid]
  exact (if_neg hkey).trans (by rw [← hname]; rfl)

theorem pair?_namespaceAttribute : namespaceAttribute.pair? = none := by decide

/-- **An envelope carries its identifier and nothing else.** -/
theorem read_rpcEnvelope (id operation : String) :
    read (rpcEnvelope id operation) = .ok ⟨"rpc", .ofPairs [("message-id", id)]⟩ := by
  have hdistinct : ([idAttribute id, namespaceAttribute].map (·.key.chars)).Nodup := by
    change ["message-id".toList, "xmlns".toList].Nodup
    decide
  have hclose : ['>'] ∈ tagEnds := by decide
  have hread := read_tagOf rpcName hdistinct .none hclose (trim operation.toList ++ "</rpc>".toList)
  have hname : String.ofList (Markup.localName rpcName.chars) = "rpc" := by decide
  rw [← toList_rpcEnvelope id operation, String.ofList_toList, hname] at hread
  simpa only [List.filterMap_cons, List.filterMap_nil, pair?_idAttribute,
    pair?_namespaceAttribute] using hread

def replyName : Name := ⟨"rpc-reply".toList, by decide, by decide⟩

/-- A reply that begins with the identifier as it is written in an envelope, and further
    attributes behind it. -/
def replyText (id : String) (others : List ReadableAttribute) (gap : Gap)
    (close behind : List Char) : List Char :=
  "<rpc-reply message-id=\"".toList ++ ((escapeString id).toList ++
    '"' :: (others.flatMap (·.written) ++ (gap.chars ++ (close ++ behind))))

theorem replyText_eq (id : String) (others : List ReadableAttribute) (gap : Gap)
    (close behind : List Char) :
    replyText id others gap close behind =
      '<' :: ((tagOf replyName (idAttribute id :: others) gap).content ++ (close ++ behind)) := by
  have hopen : "<rpc-reply message-id=\"".toList =
      '<' :: ("rpc-reply".toList ++ ' ' :: ("message-id".toList ++ ['=', '"'])) := rfl
  have hothers : (others.map fun a => a.toQuotedAttribute).flatMap QuotedAttribute.written =
      others.flatMap (·.written) := by rw [List.flatMap_map]
  have hcontent : (tagOf replyName (idAttribute id :: others) gap).content =
      "rpc-reply".toList ++ ((idAttribute id).written ++
        (others.flatMap (·.written) ++ gap.chars)) := by
    rw [← hothers, ← List.append_assoc (idAttribute id).written]
    rfl
  rw [hcontent, written_idAttribute]
  unfold replyText escapeString
  simp only [hopen, String.toList_ofList, List.append_assoc, List.cons_append, List.nil_append]

/-- **A reply that repeats an identifier as it was written is the reply to that request.** -/
theorem classify_reply (hdistinct : (others.map (·.key.chars)).Nodup)
    (hother : ∀ a ∈ others, Markup.localName a.key.chars ≠ "message-id".toList) (gap : Gap)
    {close : List Char} (hclose : close ∈ tagEnds) (behind : List Char) :
    Inbound.classify (String.ofList (replyText id others gap close behind)) =
      .ok (.reply (some id)) := by
  have hall : ((idAttribute id :: others).map (·.key.chars)).Nodup := by
    rw [List.map_cons, List.nodup_cons]
    refine ⟨?_, hdistinct⟩
    intro hmem
    obtain ⟨a, ha, hkey⟩ := List.mem_map.mp hmem
    refine hother a ha ?_
    rw [hkey]
    exact (by decide : Markup.localName "message-id".toList = "message-id".toList)
  have hentries : ∀ entry ∈ others.filterMap (·.pair?), "message-id" ≠ entry.1 := by
    intro entry hentry hkey
    obtain ⟨a, ha, hsome⟩ := List.mem_filterMap.mp hentry
    rw [ReadableAttribute.pair?] at hsome
    split at hsome
    · cases hsome
    · cases hsome
      exact hother a ha (by rw [hkey, String.toList_ofList])
  have hget : (Dictionary.ofPairs ((idAttribute id :: others).filterMap (·.pair?))).get?
      "message-id" = some id := by
    rw [List.filterMap_cons, pair?_idAttribute, Dictionary.ofPairs, List.foldl_cons,
      Dictionary.get?_foldl_insert hentries, Dictionary.get?_insert_self]
  have hname : String.ofList (Markup.localName replyName.chars) = "rpc-reply" := by decide
  rw [Inbound.classify, replyText_eq, read_tagOf replyName hall gap hclose behind, hname]
  dsimp only
  have hhello : ¬ "rpc-reply" = "hello" := by decide
  rw [Inbound.ofRootTag, if_neg hhello, if_pos rfl, hget]

/-! ## 3. Both ways -/

/-- **An identifier survives the wire**: it is read back from its envelope, a reply that repeats
    it completes the request that is registered under it, and it cannot end a frame. -/
theorem id_survives (id : String) :
    (∀ operation, read (rpcEnvelope id operation) = .ok ⟨"rpc", .ofPairs [("message-id", id)]⟩) ∧
      (∀ others gap close behind, (others.map (·.key.chars)).Nodup →
        (∀ a ∈ others, Markup.localName a.key.chars ≠ "message-id".toList) → close ∈ tagEnds →
        Inbound.classify (String.ofList (replyText id others gap close behind)) =
            .ok (.reply (some id)) ∧
          ∀ ops t, (Registry.empty.replay ops).ticket? id = some t →
            ∃ next, (Registry.empty.replay ops).deliverReply (some id)
                (String.ofList (replyText id others gap close behind)) = .ok next ∧
              next.outcome? t = some (.ok (String.ofList (replyText id others gap close behind))) ∧
              next.ticket? id = none) ∧
      (¬ "]]>]]>".toList <:+: (escapeString id).toList ∧
        Terminated.find? (Utf8.encodeString (escapeString id)) = none) := by
  have hclosing : '>' ∉ (escapeString id).toList := by
    rw [escapeString, String.toList_ofList]
    exact notMem_escape (by decide) (by decide) _
  have hmark : ¬ mark <:+: (escapeString id).toList := by
    intro hmarker
    exact hclosing (hmarker.sublist.mem (by decide))
  refine ⟨read_rpcEnvelope id, ?_, hmark, ?_⟩
  · intro others gap close behind hdistinct hother hclose
    refine ⟨classify_reply hdistinct hother gap hclose behind, ?_⟩
    intro ops t ht
    exact Registry.exists_deliverReply (Registry.wellFormed_empty.replay ops) ht _
  · rw [Terminated.find?_eq_none_iff]
    intro j hj
    apply hmark
    rw [← Utf8.infix_encode_iff isAscii_mark (by decide), encode_mark]
    exact hj.isInfix.trans (List.drop_suffix j _).isInfix

/-- An identifier of reserved characters, what looks like an entity, and a terminator. -/
def awkwardId : String := "a\"'<&lt;\n]]>]]>"

theorem isQuote_single : '\'' = '"' ∨ '\'' = '\'' := .inr rfl

/-- The declaration of a prefix, with a quoted `>`, and a value with numeric references. -/
def sampleOthers : List ReadableAttribute :=
  [{ lead := blank, lead_ne_nil := by decide, key := ⟨"xmlns:x".toList, by decide, by decide⟩
     before := .none, behind := blank, quote := '\'', isQuote := isQuote_single
     value := "\"/>".toList, unquoted := by decide
     text := "\"/>".toList, reads := unescape_eq_ok_iff.mp rfl },
    { lead := ⟨['\r', '\n'], rfl⟩, lead_ne_nil := by decide
      key := ⟨"x:id".toList, by decide, by decide⟩
      before := blank, behind := .none, quote := '"', isQuote := .inl rfl
      value := "&#x41;&#66;&amp;".toList, unquoted := by decide
      text := "AB&".toList, reads := unescape_eq_ok_iff.mp rfl }]

theorem id_survives_awkward :
    ((sampleOthers.map (·.key.chars)).Nodup ∧
      (∀ a ∈ sampleOthers, Markup.localName a.key.chars ≠ "message-id".toList) ∧
      ['/', '>'] ∈ tagEnds ∧
      (Registry.empty.replay [.register awkwardId]).ticket? awkwardId = some 0) ∧
    ∃ next, (Registry.empty.replay [.register awkwardId]).deliverReply (some awkwardId)
        (String.ofList (replyText awkwardId sampleOthers .none ['/', '>'] [])) = .ok next ∧
      next.outcome? 0 =
        some (.ok (String.ofList (replyText awkwardId sampleOthers .none ['/', '>'] []))) := by
  have hdistinct : (sampleOthers.map (·.key.chars)).Nodup := by decide
  have hother : ∀ a ∈ sampleOthers, Markup.localName a.key.chars ≠ "message-id".toList := by decide
  have hclose : ['/', '>'] ∈ tagEnds := by decide
  have hticket : (Registry.empty.replay [.register awkwardId]).ticket? awkwardId = some 0 := by
    decide
  obtain ⟨-, hreplies, -⟩ := id_survives awkwardId
  obtain ⟨-, hdelivered⟩ := hreplies sampleOthers .none ['/', '>'] [] hdistinct hother hclose
  obtain ⟨next, hnext, houtcome, -⟩ := hdelivered [.register awkwardId] 0 hticket
  exact ⟨⟨hdistinct, hother, hclose, hticket⟩, next, hnext, houtcome⟩

end NetconfClient.Envelope
