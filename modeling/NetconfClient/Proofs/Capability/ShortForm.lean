/-
  NetconfClient/Proofs/Capability/ShortForm.lean
  ==============================================
  **Short forms and the URIs that they stand for.**

  A short form is extended to a URI in one way, and a URI has short forms that are
  made in another; still each short form names the URI that it stands for
  (`mem_abbreviationsOf_expand`).  So what is inserted under a short form is found
  by it, unless an earlier entry goes by the same short form, and every capability
  of the two families is found by each of its short forms (`found_by_short_form`).
-/
import NetconfClient.Proofs.Capability.Insertion

namespace NetconfClient

open Text

/-! ## 1. The short forms of a URI -/

namespace Capability

variable {name version short : List Char}

/-- The short forms of a capability: its name, and its name with what follows it. -/
theorem mem_abbreviationsOf_capability {key : String} (rest : List Char) :
    key ∈ abbreviationsOf (capabilityUrn ++ String.ofList rest) ↔
      key = ":" ++ String.ofList (cut ':' rest).1 ∨ key = ":" ++ String.ofList rest := by
  have hrest : capabilityUrn.toList.isPrefixOf? (capabilityUrn ++ String.ofList rest).toList =
      some rest := by
    rw [String.toList_append, String.toList_ofList]
    rfl
  rw [abbreviationsOf, hrest]
  dsimp only
  split
  · next hname => rw [List.mem_singleton, hname, or_self]
  · rw [List.mem_cons, List.mem_singleton]

theorem abbreviationsOf_base (version : List Char) :
    abbreviationsOf (baseUrn ++ String.ofList version) =
      [":base", ":base:" ++ String.ofList version] := by
  have hother : capabilityUrn.toList.isPrefixOf? (baseUrn ++ String.ofList version).toList =
      none := by
    rw [String.toList_append, String.toList_ofList]
    rfl
  have hversion : baseUrn.toList.isPrefixOf? (baseUrn ++ String.ofList version).toList =
      some version := by
    rw [String.toList_append, String.toList_ofList]
    rfl
  rw [abbreviationsOf, hother, hversion]

/-- **A short form names the URI that it stands for.** -/
theorem mem_abbreviationsOf_expand (h : name.head? ≠ some ':') :
    ":" ++ String.ofList name ∈ abbreviationsOf (expand (':' :: name)) := by
  have hname : (':' :: name).dropWhile (· == ':') = name := by
    rw [List.dropWhile_cons_of_pos (by decide)]
    cases name with
    | nil => rfl
    | cons c rest =>
      refine List.dropWhile_cons_of_neg ?_
      rw [beq_iff_eq]
      rintro rfl
      exact h rfl
  dsimp only [expand]
  rw [hname]
  cases hback : (cut ':' name).2 with
  | some version =>
    have hparts := cut_some hback
    rw [← Prod.eta (cut ':' name), hback]
    dsimp only
    split
    · next hbase =>
      -- a base version: the name is the second of the two short forms
      rw [abbreviationsOf_base, hparts, hbase]
      refine List.mem_cons_of_mem _ (List.mem_singleton.mpr ?_)
      rw [← String.toList_inj]
      simp
    · exact (mem_abbreviationsOf_capability name).mpr (.inr rfl)
  | none =>
    have hwhole := cut_none hback
    rw [← Prod.eta (cut ':' name), hback]
    dsimp only
    split
    · next hbase =>
      have hshort := abbreviationsOf_base "1.0".toList
      rw [String.ofList_toList] at hshort
      rw [hshort, hbase]
      exact List.mem_cons_self
    · -- the version that was supplied is cut off again
      have hversioned : capabilityUrn ++ String.ofList name ++ ":1.0" =
          capabilityUrn ++ String.ofList (name ++ ':' :: "1.0".toList) := by
        rw [← String.toList_inj]
        simp
      have hfree : ':' ∉ name := hwhole ▸ notMem_cut_fst ':' name
      rw [hversioned, mem_abbreviationsOf_capability, cut_append_cons _ hfree]
      exact .inl rfl

/-- A URI that has short forms belongs to one of the two families. -/
theorem family_of_mem {uri key : String} (h : key ∈ abbreviationsOf uri) :
    (∃ rest, uri = capabilityUrn ++ String.ofList rest) ∨
      ∃ version, uri = baseUrn ++ String.ofList version := by
  have hparts : ∀ {front : String} {rest : List Char},
      front.toList.isPrefixOf? uri.toList = some rest → uri = front ++ String.ofList rest := by
    intro front rest hrest
    rw [← String.toList_inj, String.toList_append, String.toList_ofList]
    exact (List.isPrefixOf?_eq_some_iff_append_eq.mp hrest).symm
  rw [abbreviationsOf] at h
  split at h
  · next rest hrest => exact .inl ⟨rest, hparts hrest⟩
  · split at h
    · next version hversion => exact .inr ⟨version, hparts hversion⟩
    · cases h

theorem notMem_of_mem_abbreviationsOf {uri key : String} (h : '?' ∉ uri.toList)
    (hkey : key ∈ abbreviationsOf uri) : '?' ∉ key.toList := by
  rcases family_of_mem hkey with ⟨rest, rfl⟩ | ⟨version, rfl⟩
  · rw [String.toList_append, String.toList_ofList, List.mem_append, not_or] at h
    rcases (mem_abbreviationsOf_capability rest).mp hkey with rfl | rfl
    · simpa using fun hmem => h.2 ((subset_cut ':' rest).1 hmem)
    · simpa using h.2
  · rw [String.toList_append, String.toList_ofList, List.mem_append, not_or] at h
    rw [abbreviationsOf_base, List.mem_cons, List.mem_singleton] at hkey
    rcases hkey with rfl | rfl
    · decide
    · simpa using h.2

theorem abbreviationsOf_ne_nil {uri : String}
    (h : capabilityUrn.toList <+: uri.toList ∨ baseUrn.toList <+: uri.toList) :
    abbreviationsOf uri ≠ [] := by
  have hparts : ∀ {front : String}, front.toList <+: uri.toList →
      ∃ rest, uri = front ++ String.ofList rest := by
    rintro front ⟨rest, hrest⟩
    refine ⟨rest, ?_⟩
    rw [← String.toList_inj, String.toList_append, String.toList_ofList, hrest]
  rcases h with h | h
  · obtain ⟨rest, rfl⟩ := hparts h
    exact List.ne_nil_of_mem ((mem_abbreviationsOf_capability rest).mpr (.inl rfl))
  · obtain ⟨version, rfl⟩ := hparts h
    rw [abbreviationsOf_base]
    exact List.cons_ne_nil _ _

end Capability

/-! ## 2. Look-ups under a short form -/

namespace CapabilitySet

variable {set : CapabilitySet} {s : String} {c : Capability}

/-- **A short form finds an entry that goes by it**, and no entry in front of that does. -/
theorem exists_get?_of_short {key : String} (hset : ∀ d ∈ set.entries, d.IsRead)
    (hshort : (keyOf key).toList.head? = some ':') (hc : c ∈ set.entries)
    (hmem : keyOf key ∈ c.abbreviations) :
    ∃ d, set.get? key = some d ∧ keyOf key ∈ d.abbreviations ∧
      (d = c ∨ ∃ front between behind, set.entries = front ++ d :: (between ++ c :: behind)) := by
  -- no URI begins with a colon, so only short forms count
  have hnone : set.entries.find? (·.uri == keyOf key) = none := by
    rw [List.find?_eq_none]
    intro d hd huri
    rw [beq_iff_eq] at huri
    exact (hset d hd).formed.head?_ne (huri ▸ hshort)
  have hanswers : c.answersTo (keyOf key) = true := by
    rw [Capability.answersTo, Bool.or_eq_true, List.contains_iff_mem]
    exact .inr hmem
  obtain ⟨d, hd⟩ := Option.isSome_iff_exists.mp
    (List.find?_isSome.mpr ⟨c, hc, hanswers⟩ :
      (set.entries.find? (·.answersTo (keyOf key))).isSome = true)
  obtain ⟨hdkey, front, behind, hentries, hfront⟩ := List.find?_eq_some_iff_append.mp hd
  have hdmem : d ∈ set.entries := List.mem_of_find?_eq_some hd
  refine ⟨d, ?_, ?_, ?_⟩
  · rw [get?, hnone, Option.none_or, hd]
  · rw [Capability.answersTo, Bool.or_eq_true, beq_iff_eq, List.contains_iff_mem] at hdkey
    refine hdkey.resolve_left ?_
    intro huri
    exact (hset d hdmem).formed.head?_ne (huri ▸ hshort)
  · rw [hentries, List.mem_append, List.mem_cons] at hc
    rcases hc with hc | rfl | hc
    · have hnot := hfront c hc
      rw [hanswers] at hnot
      cases hnot
    · exact .inl rfl
    · obtain ⟨between, rest, rfl⟩ := List.append_of_mem hc
      exact .inr ⟨front, between, rest, hentries⟩

/-- The URI that a text without blanks at its ends stands for. -/
theorem uri_of_parse (htrim : trimString s = s) (h : Capability.parse s = .ok c) :
    c.uri = if (keyOf s).toList.head? = some ':' then Capability.expand (keyOf s).toList
      else keyOf s := by
  have hself : trim s.toList = s.toList := by rw [← toList_trimString, htrim]
  rw [Capability.parse, hself, Capability.ofTrimmed] at h
  split at h
  · cases h
  · cases h
    rw [keyOf, String.toList_ofList]

theorem cut_fst_prefix (sep : Char) (cs : List Char) : (cut sep cs).1 <+: cs := by
  cases hback : (cut sep cs).2 with
  | none => exact ⟨[], (List.append_nil _).trans (cut_none hback)⟩
  | some back => exact ⟨sep :: back, (cut_some hback).symm⟩

/-- A short form is one colon and a name that does not begin with another. -/
theorem exists_name (hshort : (keyOf s).toList.head? = some ':') (h : ¬ [':', ':'] <+: s.toList) :
    ∃ name : List Char, name.head? ≠ some ':' ∧ (keyOf s).toList = ':' :: name := by
  rw [keyOf, String.toList_ofList] at hshort ⊢
  obtain ⟨name, hname⟩ : ∃ name, (cut '?' s.toList).1 = ':' :: name := by
    rcases hcut : (cut '?' s.toList).1 with _ | ⟨c, name⟩
    · rw [hcut] at hshort
      cases hshort
    · rw [hcut] at hshort
      cases hshort
      exact ⟨name, rfl⟩
  refine ⟨name, ?_, hname⟩
  intro hcolon
  obtain ⟨rest, rfl⟩ : ∃ rest, name = ':' :: rest := by
    rcases name with _ | ⟨d, rest⟩
    · cases hcolon
    · cases hcolon
      exact ⟨rest, rfl⟩
  apply h
  have hfront := cut_fst_prefix '?' s.toList
  rw [hname] at hfront
  exact List.IsPrefix.trans ⟨rest, rfl⟩ hfront

/-- **What is inserted under a text is found by it**, unless an earlier entry goes by the same
    short form. -/
theorem exists_get?_insert (hset : ∀ d ∈ set.entries, d.IsRead) (htrim : trimString s = s)
    (h : Capability.parse s = .ok c) (hcolons : ¬ [':', ':'] <+: s.toList) :
    ∃ d, (set.insert c).get? s = some d ∧
      (d = c ∨ keyOf s ∈ d.abbreviations ∧ ∃ front between behind,
        (set.insert c).entries = front ++ d :: (between ++ c :: behind)) := by
  have hall : ∀ d ∈ (set.insert c).entries, d.IsRead := by
    intro d hd
    rcases mem_putInto hd with rfl | hd
    · exact ⟨s, h⟩
    · exact hset d hd
  have huri := uri_of_parse htrim h
  have hc := mem_insert_self set c
  by_cases hshort : (keyOf s).toList.head? = some ':'
  · obtain ⟨name, hname, hkey⟩ := exists_name hshort hcolons
    have hmem : keyOf s ∈ c.abbreviations := by
      have hself : keyOf s = ":" ++ String.ofList name := by
        rw [← String.toList_inj, hkey]
        simp
      rw [if_pos hshort, hkey] at huri
      rw [Capability.abbreviations, huri, hself]
      exact Capability.mem_abbreviationsOf_expand hname
    obtain ⟨d, hd, hdkey, hplace⟩ := exists_get?_of_short hall hshort hc hmem
    exact ⟨d, hd, hplace.imp_right fun hearlier => ⟨hdkey, hearlier⟩⟩
  · rw [if_neg hshort] at huri
    refine ⟨c, ?_, .inl rfl⟩
    rw [get?_of_full hshort, ← huri]
    exact find?_of_mem hc

/-- Alone, a capability is found by each of its short forms. -/
theorem get?_of_abbreviation {key : String} (hc : c.IsRead) (h : key ∈ c.abbreviations) :
    (empty.insert c).get? key = some c := by
  have hself : keyOf key = key :=
    keyOf_eq_self (Capability.notMem_of_mem_abbreviationsOf hc.formed.uri_mark h)
  have hanswers : c.answersTo key = true := by
    rw [Capability.answersTo, Bool.or_eq_true, List.contains_iff_mem]
    exact .inr h
  have hentries : (empty.insert c).entries = [c] := rfl
  rw [get?, hself, hentries, List.find?_singleton, List.find?_singleton, if_pos hanswers]
  split
  · rfl
  · rfl

/-- **Short forms and URIs agree.**  A text without blanks at its ends that does not begin with
    two colons is found once its capability is inserted among others that were read: it finds that
    capability, or an entry in front of it that goes by the same short form.  Conversely every
    capability of the two families has short forms, and is found by each of them. -/
theorem found_by_short_form :
    (∀ (set : CapabilitySet) (s : String) (c : Capability), (∀ d ∈ set.entries, d.IsRead) →
      trimString s = s → Capability.parse s = .ok c → ¬ [':', ':'] <+: s.toList →
      (set.insert c).contains s = true ∧ ∃ d, (set.insert c).get? s = some d ∧
        (d = c ∨ keyOf s ∈ d.abbreviations ∧ ∃ front between behind,
          (set.insert c).entries = front ++ d :: (between ++ c :: behind))) ∧
    ∀ c : Capability, c.IsRead →
      Capability.capabilityUrn.toList <+: c.uri.toList ∨
        Capability.baseUrn.toList <+: c.uri.toList →
      c.abbreviations ≠ [] ∧ ∀ key ∈ c.abbreviations, (empty.insert c).get? key = some c := by
  constructor
  · intro set s c hset htrim h hcolons
    obtain ⟨d, hd, hplace⟩ := exists_get?_insert hset htrim h hcolons
    refine ⟨?_, d, hd, hplace⟩
    rw [contains, hd]
    rfl
  · intro c hc hfamily
    exact ⟨Capability.abbreviationsOf_ne_nil hfamily, fun key hkey => get?_of_abbreviation hc hkey⟩

/-- A capability that comes in front of the one inserted and goes by the same short form; and
    the two short forms of a base version. -/
theorem found_by_short_form_earlier :
    (∃ set c d : _, parse ["urn:a", "urn:ietf:params:netconf:capability:candidate:2.0"] = .ok set ∧
      Capability.parse ":candidate?x=1" = .ok c ∧
      c.uri = "urn:ietf:params:netconf:capability:candidate:1.0" ∧
      (set.insert c).get? ":candidate?x=1" = some d ∧
      d.uri = "urn:ietf:params:netconf:capability:candidate:2.0" ∧
      ∃ front between behind, (set.insert c).entries = front ++ d :: (between ++ c :: behind)) ∧
    (empty.insert ⟨"urn:ietf:params:netconf:base:1.1", .empty⟩).get? ":base" =
        some ⟨"urn:ietf:params:netconf:base:1.1", .empty⟩ ∧
      (empty.insert ⟨"urn:ietf:params:netconf:base:1.1", .empty⟩).get? ":base:1.1" =
        some ⟨"urn:ietf:params:netconf:base:1.1", .empty⟩ := by
  constructor
  · let set : CapabilitySet := ⟨[⟨"urn:a", .empty⟩,
      ⟨"urn:ietf:params:netconf:capability:candidate:2.0", .empty⟩], by decide⟩
    let c : Capability :=
      ⟨"urn:ietf:params:netconf:capability:candidate:1.0", .ofPairs [("x", "1")]⟩
    have hset : parse ["urn:a", "urn:ietf:params:netconf:capability:candidate:2.0"] = .ok set := by
      decide +kernel
    have hc : Capability.parse ":candidate?x=1" = .ok c := by decide +kernel
    obtain ⟨-, d, hd, hplace⟩ := found_by_short_form.1 set ":candidate?x=1" c
      (fun _ => isRead_of_parse hset) (by decide +kernel) hc (by decide)
    have hd' : (set.insert c).get? ":candidate?x=1" =
        some ⟨"urn:ietf:params:netconf:capability:candidate:2.0", .empty⟩ := by decide +kernel
    obtain rfl := Option.some.inj (hd.symm.trans hd')
    rcases hplace with hsame | ⟨-, hearlier⟩
    · exact absurd hsame (by decide)
    · exact ⟨set, c, _, hset, hc, rfl, hd, rfl, hearlier⟩
  · have hread : (⟨"urn:ietf:params:netconf:base:1.1", .empty⟩ : Capability).IsRead :=
      ⟨":base:1.1", by decide +kernel⟩
    obtain ⟨-, hfound⟩ := found_by_short_form.2 _ hread (.inr (by decide))
    exact ⟨hfound ":base" (by decide), hfound ":base:1.1" (by decide)⟩

end CapabilitySet

end NetconfClient
