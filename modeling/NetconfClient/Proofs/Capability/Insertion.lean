/-
  NetconfClient/Proofs/Capability/Insertion.lean
  ==============================================
  **A set of capabilities is a map in the order of insertion.**

  Whatever is inserted into a set, it holds one capability for each URI: the last
  one inserted with it, at the place of the first (`Holds`, kept by every
  insertion).  A look-up by URI, with or without parameters behind it, finds that
  capability and no other (`insertion_ordered_map`).
-/
import Mathlib.Data.List.Nodup
import NetconfClient.Proofs.Capability.Negotiation
import NetconfClient.Proofs.Capability.Rereading

namespace NetconfClient.CapabilitySet

variable {set : CapabilitySet} {inserted further : List Capability} {c : Capability}

/-! ## 1. One insertion -/

theorem find?_putInto_self (c : Capability) (entries : List Capability) :
    (c.putInto entries).find? (·.uri == c.uri) = some c := by
  induction entries with
  | nil => simp [Capability.putInto]
  | cons d entries ih =>
    rw [Capability.putInto]
    split
    · simp
    · next hne => rw [List.find?_cons_of_neg (by simpa using hne), ih]

theorem find?_putInto_of_ne {uri : String} (h : uri ≠ c.uri) (entries : List Capability) :
    (c.putInto entries).find? (·.uri == uri) = entries.find? (·.uri == uri) := by
  have hskip : ∀ (d : Capability) (rest : List Capability), d.uri = c.uri →
      (d :: rest).find? (·.uri == uri) = rest.find? (·.uri == uri) := by
    intro d rest hd
    exact List.find?_cons_of_neg (by simpa [hd] using Ne.symm h)
  induction entries with
  | nil => exact hskip c [] rfl
  | cons d entries ih =>
    rw [Capability.putInto]
    split
    · next hd => rw [hskip c _ rfl, hskip d _ hd]
    · rw [List.find?_cons, List.find?_cons, ih]

theorem mem_putInto {d : Capability} {entries : List Capability} (h : d ∈ c.putInto entries) :
    d = c ∨ d ∈ entries := by
  induction entries with
  | nil => exact .inl (List.mem_singleton.mp h)
  | cons e entries ih =>
    rw [Capability.putInto] at h
    split at h
    · rcases List.mem_cons.mp h with h | h
      · exact .inl h
      · exact .inr (List.mem_cons_of_mem e h)
    · rcases List.mem_cons.mp h with rfl | h
      · exact .inr List.mem_cons_self
      · exact (ih h).imp_right (List.mem_cons_of_mem e)

theorem mem_insert_self (set : CapabilitySet) (c : Capability) : c ∈ (set.insert c).entries :=
  List.mem_of_find?_eq_some (find?_putInto_self c set.entries)

/-! ## 2. Many insertions -/

theorem eraseDups_concat (names : List String) (name : String) :
    (names ++ [name]).eraseDups =
      if name ∈ names then names.eraseDups else names.eraseDups ++ [name] := by
  rw [List.eraseDups_append]
  split
  · next hmem =>
    have hnone : [name].removeAll names = [] := by simp [List.removeAll, hmem]
    rw [hnone, List.eraseDups_nil, List.append_nil]
  · next hmem =>
    have hnew : [name].removeAll names = [name] := by simp [List.removeAll, hmem]
    rw [hnew, List.eraseDups_cons, List.filter_nil, List.eraseDups_nil]

/-- The set that holds what was inserted: each URI once, in the order in which they first came,
    and under each the last capability inserted with it. -/
structure Holds (set : CapabilitySet) (inserted : List Capability) : Prop where
  uris : set.uris = (inserted.map (·.uri)).eraseDups
  last : ∀ uri, set.entries.find? (·.uri == uri) = (inserted.filter (·.uri == uri)).getLast?

theorem holds_empty : Holds empty [] := ⟨rfl, fun _ => rfl⟩

/-- **An insertion adds to what a set holds.** -/
theorem Holds.insert (h : Holds set inserted) (c : Capability) :
    Holds (set.insert c) (inserted ++ [c]) where
  uris := by
    rw [uris_insert, h.uris, List.map_append, List.map_singleton, eraseDups_concat]
    simp only [List.mem_eraseDups]
  last := by
    intro uri
    rw [List.filter_append]
    by_cases huri : uri = c.uri
    · -- the new capability is the last one with its URI
      subst huri
      have hself : [c].filter (·.uri == c.uri) = [c] := by simp
      rw [hself, List.getLast?_concat]
      exact find?_putInto_self c set.entries
    · have hother : [c].filter (·.uri == uri) = [] := by simpa using Ne.symm huri
      rw [hother, List.append_nil, ← h.last]
      exact find?_putInto_of_ne huri set.entries

theorem Holds.foldl_insert (h : Holds set inserted) (further : List Capability) :
    Holds (further.foldl CapabilitySet.insert set) (inserted ++ further) := by
  induction further generalizing set inserted with
  | nil => rwa [List.append_nil]
  | cons c further ih =>
    have hnext := ih (h.insert c)
    rwa [List.append_assoc, List.singleton_append] at hnext

theorem find?_of_mem (h : c ∈ set.entries) : set.entries.find? (·.uri == c.uri) = some c := by
  have hdistinct := set.distinct
  revert h hdistinct
  induction set.entries with
  | nil => exact fun h => absurd h List.not_mem_nil
  | cons d entries ih =>
    intro h hdistinct
    rw [List.map_cons, List.nodup_cons] at hdistinct
    rcases List.mem_cons.mp h with rfl | h
    · simp
    · have hne : d.uri ≠ c.uri := fun heq => hdistinct.1 (heq ▸ List.mem_map_of_mem h)
      rw [List.find?_cons_of_neg (by simpa using hne), ih h hdistinct.2]

theorem Holds.mem (h : Holds set inserted) (hc : c ∈ set.entries) : c ∈ inserted := by
  have hlast := (h.last c.uri).symm.trans (find?_of_mem hc)
  exact List.mem_of_mem_filter (List.mem_of_getLast? hlast)

/-! ## 3. Reading a list of texts -/

theorem insertAll_eq_foldl {texts : List String} {caps : List Capability}
    (h : texts.map Capability.parse = caps.map .ok) (set : CapabilitySet) :
    set.insertAll texts = .ok (caps.foldl CapabilitySet.insert set) := by
  induction texts generalizing set caps with
  | nil =>
    obtain rfl : caps = [] := by simpa using h.symm
    rfl
  | cons s texts ih =>
    obtain ⟨c, rest, rfl⟩ := List.exists_cons_of_ne_nil (l := caps) (by rintro rfl; simp at h)
    rw [List.map_cons, List.map_cons, List.cons.injEq] at h
    rw [insertAll, h.1]
    exact ih h.2 _

/-- The first text that cannot be read decides. -/
theorem insertAll_error {front behind : List String} {s : String} {fault : Fault}
    (hfront : ∀ t ∈ front, ∃ c, Capability.parse t = .ok c) (h : Capability.parse s = .error fault)
    (set : CapabilitySet) : set.insertAll (front ++ s :: behind) = .error fault := by
  induction front generalizing set with
  | nil => rw [List.nil_append, insertAll, h]
  | cons t front ih =>
    obtain ⟨c, hc⟩ := hfront t List.mem_cons_self
    rw [List.cons_append, insertAll, hc]
    exact ih (fun u hu => hfront u (List.mem_cons_of_mem t hu)) _

theorem map_parse_isRead {texts : List String} {caps : List Capability}
    (h : texts.map Capability.parse = caps.map .ok) (hc : c ∈ caps) : c.IsRead := by
  have hmem : Except.ok c ∈ texts.map Capability.parse := h ▸ List.mem_map_of_mem hc
  obtain ⟨s, -, hs⟩ := List.mem_map.mp hmem
  exact ⟨s, hs⟩

/-- **Every entry of a set that is read comes from a text.** -/
theorem isRead_of_parse {texts : List String} (h : parse texts = .ok set) (hc : c ∈ set.entries) :
    c.IsRead := by
  -- the induction is over the texts, from any set whose entries were read
  have hall : ∀ start : CapabilitySet, (∀ d ∈ start.entries, d.IsRead) →
      start.insertAll texts = .ok set → c.IsRead := by
    clear h
    induction texts with
    | nil =>
      intro start hstart h
      cases h
      exact hstart c hc
    | cons s texts ih =>
      intro start hstart h
      rw [insertAll] at h
      split at h
      · next d hd =>
        refine ih (start.insert d) ?_ h
        intro e he
        rcases mem_putInto he with rfl | he
        · exact ⟨s, hd⟩
        · exact hstart e he
      · cases h
  exact hall empty (fun d hd => absurd hd List.not_mem_nil) h

/-! ## 4. Look-ups -/

/-- **A URI that is present names its entry**, with or without parameters behind it. -/
theorem get?_of_mem (hc : c ∈ set.entries) (hformed : c.Formed) :
    set.get? c.uri = some c ∧ ∀ query, set.get? (c.uri ++ "?" ++ query) = some c := by
  have hself := keyOf_eq_self hformed.uri_mark
  constructor
  · rw [get?_of_full (hself.symm ▸ hformed.head?_ne), hself, find?_of_mem hc]
  · intro query
    have hkey := keyOf_append hformed.uri_mark query
    rw [get?_of_full (hkey.symm ▸ hformed.head?_ne), hkey, find?_of_mem hc]

/-- **A URI that is absent names nothing.** -/
theorem get?_of_notMem {uri : String} (hmark : '?' ∉ uri.toList)
    (hfull : uri.toList.head? ≠ some ':') (h : uri ∉ set.uris) :
    set.get? uri = none ∧ ∀ query, set.get? (uri ++ "?" ++ query) = none := by
  have hnone : set.entries.find? (·.uri == uri) = none := by
    rw [List.find?_eq_none]
    intro c hc huri
    exact h (mem_uris.mpr ⟨c, hc, by simpa using huri⟩)
  have hself := keyOf_eq_self hmark
  constructor
  · rw [get?_of_full (hself.symm ▸ hfull), hself, hnone]
  · intro query
    have hkey := keyOf_append hmark query
    rw [get?_of_full (hkey.symm ▸ hfull), hkey, hnone]

/-- **A set is a map in the order of insertion.**  From texts that can all be read and whatever
    is inserted later there is one entry for each URI, in the order in which the URIs first came,
    and it is the last capability inserted with that URI.  A look-up by the URI of an entry finds
    that entry, parameters or not, and a look-up by any other URI finds nothing.  A list with a
    text that cannot be read is refused for the first such text. -/
theorem insertion_ordered_map (texts : List String) :
    (∀ caps further : List Capability, texts.map Capability.parse = caps.map .ok →
      (∀ c ∈ further, c.IsRead) →
      ∃ first set, parse texts = .ok first ∧ further.foldl CapabilitySet.insert first = set ∧
        set.uris = ((caps ++ further).map (·.uri)).eraseDups ∧
        (∀ c ∈ set.entries, ((caps ++ further).filter (·.uri == c.uri)).getLast? = some c) ∧
        (∀ c ∈ set.entries,
          set.get? c.uri = some c ∧ ∀ query, set.get? (c.uri ++ "?" ++ query) = some c) ∧
        ∀ uri : String, '?' ∉ uri.toList → uri.toList.head? ≠ some ':' → uri ∉ set.uris →
          set.get? uri = none ∧ ∀ query, set.get? (uri ++ "?" ++ query) = none) ∧
    ∀ front s behind fault, texts = front ++ s :: behind →
      (∀ t ∈ front, ∃ c, Capability.parse t = .ok c) → Capability.parse s = .error fault →
      parse texts = .error fault := by
  constructor
  · intro caps further hread hfurther
    have hholds := (holds_empty.foldl_insert caps).foldl_insert further
    rw [List.nil_append] at hholds
    have hformed : ∀ c ∈ caps ++ further, c.Formed := by
      intro c hc
      rcases List.mem_append.mp hc with hc | hc
      · exact (map_parse_isRead hread hc).formed
      · exact (hfurther c hc).formed
    refine ⟨_, _, insertAll_eq_foldl hread empty, rfl, hholds.uris, ?_, ?_, ?_⟩
    · intro c hc
      rw [← hholds.last, find?_of_mem hc]
    · intro c hc
      exact get?_of_mem hc (hformed c (hholds.mem hc))
    · intro uri hmark hfull habsent
      exact get?_of_notMem hmark hfull habsent
  · rintro front s behind fault rfl hfront hs
    exact insertAll_error hfront hs empty

/-- A short form and the URI that it stands for, and a capability that comes again later; and a
    list with two texts that cannot be read. -/
theorem insertion_ordered_map_replaced :
    (∃ first set : CapabilitySet,
      parse [":candidate?x=1", " urn:a?x=1",
        "urn:ietf:params:netconf:capability:candidate:1.0?y"] = .ok first ∧
      [⟨"urn:b", .empty⟩, ⟨"urn:a", .ofPairs [("x", "2")]⟩].foldl CapabilitySet.insert first = set ∧
      set.uris = ["urn:ietf:params:netconf:capability:candidate:1.0", "urn:a", "urn:b"] ∧
      set.get? "urn:a?x=1" = some ⟨"urn:a", .ofPairs [("x", "2")]⟩ ∧
      set.get? "candidate" = none) ∧
    parse ["urn:a", ":", "urn:b", " "] = .error (.capabilityExchange "empty capability") := by
  constructor
  · have hfurther : ∀ c ∈ [⟨"urn:b", .empty⟩, (⟨"urn:a", .ofPairs [("x", "2")]⟩ : Capability)],
        c.IsRead :=
      List.forall_mem_cons.mpr ⟨⟨"urn:b", by decide +kernel⟩,
        List.forall_mem_cons.mpr ⟨⟨"urn:a?x=2", by decide +kernel⟩, List.forall_mem_nil _⟩⟩
    obtain ⟨first, set, hfirst, hset, huris, hlast, hpresent, habsent⟩ :=
      (insertion_ordered_map [":candidate?x=1", " urn:a?x=1",
          "urn:ietf:params:netconf:capability:candidate:1.0?y"]).1
        [⟨"urn:ietf:params:netconf:capability:candidate:1.0", .ofPairs [("x", "1")]⟩,
          ⟨"urn:a", .ofPairs [("x", "1")]⟩,
          ⟨"urn:ietf:params:netconf:capability:candidate:1.0", .ofPairs [("y", "")]⟩]
        _ (by decide +kernel) hfurther
    have hnames : set.uris =
        ["urn:ietf:params:netconf:capability:candidate:1.0", "urn:a", "urn:b"] := by
      rw [huris]
      decide +kernel
    have hmem : "urn:a" ∈ set.uris := by
      rw [hnames]
      decide
    obtain ⟨c, hc, huri⟩ := mem_uris.mp hmem
    have hc' := hlast c hc
    rw [huri] at hc'
    obtain rfl : ⟨"urn:a", .ofPairs [("x", "2")]⟩ = c := Option.some.inj hc'
    refine ⟨first, set, hfirst, hset, hnames, (hpresent _ hc).2 "x=1", ?_⟩
    refine (habsent "candidate" (by decide) (by decide) ?_).1
    rw [hnames]
    decide
  · exact (insertion_ordered_map _).2 ["urn:a"] ":" ["urn:b", " "] _ rfl
      (by simpa using ⟨⟨"urn:a", .empty⟩, by decide +kernel⟩) (by decide +kernel)

end NetconfClient.CapabilitySet
