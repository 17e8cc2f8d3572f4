/-
  NetconfClient/Proofs/Message/AttributeOrder.lean
  ================================================
  **Which orders of the attributes of a root tag are told apart.**

  The attributes of a tag have different names, but they are kept by their local
  names, and of those with one local name the last is kept.  So two orders are
  read alike exactly if the same text comes last under each local name
  (`attributes_in_any_order`): always if no two local names are the same, and not
  if `message-id` changes places with another attribute of that local name
  (`order_is_noticed`).  A tag that cannot be read is refused in any order.
-/
import NetconfClient.Proofs.Message.Envelope
import NetconfClient.Proofs.Text.Dictionary

namespace NetconfClient.RootTag

open Text Markup Dictionary

variable {attributes one two : List QuotedAttribute}

/-! ## 1. Messages that differ in the attributes of their root tag -/

/-- What a message holds besides the attributes of its root tag. -/
structure Surroundings where
  prolog : Prolog
  name : Name
  gap : Gap
  close : List Char
  close_mem : close ∈ tagEnds
  behind : List Char

/-- The message whose root tag has those attributes. -/
def Surroundings.message (around : Surroundings) (attributes : List QuotedAttribute) : String :=
  String.ofList (around.prolog.written ++
    '<' :: ((Tag.mk around.name attributes around.gap).content ++ (around.close ++ around.behind)))

/-- Whether every attribute can be read. -/
def AllLegible (attributes : List QuotedAttribute) : Prop :=
  ∀ a ∈ attributes.map QuotedAttribute.read, Legible a

instance (attributes : List QuotedAttribute) : Decidable (AllLegible attributes) :=
  inferInstanceAs (Decidable (∀ _ ∈ _, _))

/-- The local names and texts of attributes, without declarations of namespaces. -/
def entries (attributes : List QuotedAttribute) : List (String × String) :=
  (attributes.map QuotedAttribute.read).filterMap stored?

/-- The text of the last attribute with that local name. -/
def lastText (attributes : List QuotedAttribute) (name : String) : Option String :=
  lastValue (entries attributes) name

/-! ## 2. What is read of them -/

variable (around : Surroundings)

/-- The root tag that is read. -/
def rootOf (attributes : List QuotedAttribute) : RootTag :=
  ⟨String.ofList (Markup.localName around.name.chars), .ofPairs (entries attributes)⟩

theorem read_message_of_legible (hdistinct : (attributes.map (·.key.chars)).Nodup)
    (h : AllLegible attributes) :
    read (around.message attributes) = .ok (rootOf around attributes) := by
  rw [Surroundings.message, read_written _ _ around.close_mem]
  exact ofContent_of_legible hdistinct h

theorem read_message_of_not_legible (hdistinct : (attributes.map (·.key.chars)).Nodup)
    (h : ¬ AllLegible attributes) :
    ∃ fault, read (around.message attributes) = .error fault := by
  rw [Surroundings.message, read_written _ _ around.close_mem]
  exact ofContent_of_not_legible hdistinct h

theorem get?_rootOf (name : String) :
    (rootOf around attributes).attributes.get? name = lastText attributes name :=
  get?_ofPairs (entries attributes) name

theorem rootOf_eq_iff :
    rootOf around one = rootOf around two ↔ ∀ name, lastText one name = lastText two name := by
  rw [rootOf, rootOf, RootTag.mk.injEq, and_iff_right rfl]
  exact ofPairs_eq_iff

/-- Of the attributes only the identifier decides what a message is. -/
theorem ofRootTag_rootOf (h : lastText one "message-id" = lastText two "message-id") :
    Inbound.ofRootTag (rootOf around one) = Inbound.ofRootTag (rootOf around two) := by
  have hname : (rootOf around one).name = (rootOf around two).name := rfl
  rw [Inbound.ofRootTag, Inbound.ofRootTag, get?_rootOf, get?_rootOf, h, hname]

theorem ofRootTag_reply (hname : Markup.localName around.name.chars = "rpc-reply".toList) :
    Inbound.ofRootTag (rootOf around attributes) = .reply (lastText attributes "message-id") := by
  have hlocal : (rootOf around attributes).name = "rpc-reply" := by
    rw [rootOf, hname, String.ofList_toList]
  have hhello : ¬ "rpc-reply" = "hello" := by decide
  rw [Inbound.ofRootTag, hlocal, if_neg hhello, if_pos rfl, get?_rootOf]

theorem classify_of_read {message : String} {root : RootTag} (h : read message = .ok root) :
    Inbound.classify message = .ok (Inbound.ofRootTag root) := by
  rw [Inbound.classify, h]

/-! ## 3. Permutations -/

theorem nodup_of_perm (hdistinct : (one.map (·.key.chars)).Nodup)
    (hperm : (one.map QuotedAttribute.read).Perm (two.map QuotedAttribute.read)) :
    (two.map (·.key.chars)).Nodup := by
  have hkeys := hperm.map Attribute.key
  rw [List.map_map, List.map_map] at hkeys
  exact hkeys.nodup_iff.mp hdistinct

theorem allLegible_iff (hperm : (one.map QuotedAttribute.read).Perm (two.map QuotedAttribute.read)) :
    AllLegible one ↔ AllLegible two :=
  forall_congr' fun _ => imp_congr_left hperm.mem_iff

theorem lastText_perm (hperm : (one.map QuotedAttribute.read).Perm (two.map QuotedAttribute.read))
    (hlocal : ((entries one).map (·.1)).Nodup) (name : String) :
    lastText one name = lastText two name :=
  lastValue_perm (hperm.filterMap stored?) hlocal name

/-! ## 4. Which orders are told apart -/

/-- **Which orders of attributes are told apart.**  If every attribute can be read, the tag is
    read in both orders, under the same name; each local name has the text of the last attribute
    with it, and the tags are the same exactly if these agree.  The message is the same if they
    agree on `message-id`, which is what a reply is routed by.  All orders agree if no two local
    names are the same.  If some attribute cannot be read, the message is refused in both. -/
theorem attributes_in_any_order (around : Surroundings)
    (hdistinct : (one.map (·.key.chars)).Nodup)
    (hperm : (one.map QuotedAttribute.read).Perm (two.map QuotedAttribute.read)) :
    (AllLegible one →
      (∃ first second : RootTag,
        read (around.message one) = .ok first ∧ read (around.message two) = .ok second ∧
        first.name = second.name ∧
        (∀ name, first.attributes.get? name = lastText one name) ∧
        (∀ name, second.attributes.get? name = lastText two name) ∧
        (first = second ↔ ∀ name, lastText one name = lastText two name)) ∧
      (lastText one "message-id" = lastText two "message-id" →
        Inbound.classify (around.message one) = Inbound.classify (around.message two)) ∧
      (Markup.localName around.name.chars = "rpc-reply".toList →
        Inbound.classify (around.message one) = .ok (.reply (lastText one "message-id"))) ∧
      (((entries one).map (·.1)).Nodup →
        read (around.message one) = read (around.message two) ∧
          Inbound.classify (around.message one) = Inbound.classify (around.message two))) ∧
    (¬ AllLegible one →
      (∃ fault, read (around.message one) = .error fault) ∧
        ∃ fault, read (around.message two) = .error fault) := by
  have hdistinct' := nodup_of_perm hdistinct hperm
  constructor
  · intro hlegible
    have hfirst := read_message_of_legible around hdistinct hlegible
    have hsecond := read_message_of_legible around hdistinct' ((allLegible_iff hperm).mp hlegible)
    have hsame : lastText one "message-id" = lastText two "message-id" →
        Inbound.classify (around.message one) = Inbound.classify (around.message two) := by
      intro hid
      rw [classify_of_read hfirst, classify_of_read hsecond, ofRootTag_rootOf around hid]
    refine ⟨⟨_, _, hfirst, hsecond, rfl, get?_rootOf around, get?_rootOf around,
      rootOf_eq_iff around⟩, hsame, ?_, ?_⟩
    · intro hreply
      rw [classify_of_read hfirst, ofRootTag_reply around hreply]
    · intro hlocal
      have hagree := lastText_perm hperm hlocal
      refine ⟨?_, hsame (hagree "message-id")⟩
      rw [hfirst, hsecond, (rootOf_eq_iff around).mpr hagree]
  · intro hillegible
    exact ⟨read_message_of_not_legible around hdistinct hillegible,
      read_message_of_not_legible around hdistinct' (mt (allLegible_iff hperm).mpr hillegible)⟩

/-- The surroundings of a reply without content. -/
def replySurroundings : Surroundings :=
  ⟨⟨[], .none⟩, Envelope.replyName, .none, ['/', '>'], by decide, []⟩

/-- A message identifier. -/
def plainId : QuotedAttribute := (Envelope.idAttribute "7").toQuotedAttribute

/-- Another attribute, written like that one. -/
def plainAttribute (key : Name) (value : List Char) (h : '"' ∉ value) : QuotedAttribute :=
  { plainId with key := key, value := value, unquoted := h }

/-- A message identifier of another namespace. -/
def foreignId : QuotedAttribute :=
  plainAttribute ⟨"nc:message-id".toList, by decide, by decide⟩ "8".toList (by decide)

/-- The declaration of a namespace, with a value that cannot be read. -/
def brokenNamespace : QuotedAttribute :=
  plainAttribute ⟨"xmlns:n".toList, by decide, by decide⟩ "&".toList (by decide)

/-- An attribute that has nothing to do with routing. -/
def foreignNote : QuotedAttribute :=
  plainAttribute ⟨"n:note".toList, by decide, by decide⟩ "&lt;".toList (by decide)

/-- Two identifiers that keep their order, among attributes that change places. -/
theorem attributes_in_any_order_foreign :
    Inbound.classify (replySurroundings.message [brokenNamespace, foreignId, foreignNote, plainId]) =
        .ok (.reply (some "7")) ∧
      Inbound.classify
          (replySurroundings.message [foreignNote, foreignId, plainId, brokenNamespace]) =
        .ok (.reply (some "7")) := by
  have hdistinct :
      ([brokenNamespace, foreignId, foreignNote, plainId].map (·.key.chars)).Nodup := by decide
  have hperm : ([brokenNamespace, foreignId, foreignNote, plainId].map QuotedAttribute.read).Perm
      ([foreignNote, foreignId, plainId, brokenNamespace].map QuotedAttribute.read) := by decide
  have hlegible : AllLegible [brokenNamespace, foreignId, foreignNote, plainId] := by decide
  obtain ⟨-, hsame, hreply, -⟩ :=
    (attributes_in_any_order replySurroundings hdistinct hperm).1 hlegible
  have hid : lastText [brokenNamespace, foreignId, foreignNote, plainId] "message-id" = some "7" := by
    decide +kernel
  have hfirst := hreply (by decide)
  rw [hid] at hfirst
  exact ⟨hfirst, (hsame (by decide +kernel)).symm.trans hfirst⟩

/-- **The order is noticed** if two attributes have one local name. -/
theorem order_is_noticed :
    (¬ ∀ (around : Surroundings) (one two : List QuotedAttribute),
      (one.map (·.key.chars)).Nodup →
      (one.map QuotedAttribute.read).Perm (two.map QuotedAttribute.read) → AllLegible one →
      Inbound.classify (around.message one) = Inbound.classify (around.message two)) ∧
    Inbound.classify "<rpc-reply message-id=\"7\" nc:message-id=\"8\"/>" =
      .ok (.reply (some "8")) ∧
    Inbound.classify "<rpc-reply nc:message-id=\"8\" message-id=\"7\"/>" =
      .ok (.reply (some "7")) := by
  refine ⟨?_, by decide +kernel, by decide +kernel⟩
  intro hall
  have hsame := hall replySurroundings [plainId, foreignId] [foreignId, plainId] (by decide)
    (by decide) (by decide)
  have hfirst : Inbound.classify (replySurroundings.message [plainId, foreignId]) =
      .ok (.reply (some "8")) := by decide +kernel
  have hsecond : Inbound.classify (replySurroundings.message [foreignId, plainId]) =
      .ok (.reply (some "7")) := by decide +kernel
  rw [hfirst, hsecond] at hsame
  exact absurd hsame (by decide)

end NetconfClient.RootTag
