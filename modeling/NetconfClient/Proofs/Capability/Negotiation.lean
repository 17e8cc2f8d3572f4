/-
  NetconfClient/Proofs/Capability/Negotiation.lean
  ================================================
  **Only the two base URIs decide the negotiation.**

  A look-up falls back on short forms, but these begin with a colon, so asking
  for a full URI finds the capability of exactly that URI or nothing
  (`contains_iff`).  Both peers therefore come to the same version
  (`shared_comm`), whatever else they announce.
-/
import NetconfClient.Capability.Negotiation

namespace NetconfClient

open Text

/-! ## 1. Looking up a URI -/

/-- Short forms begin with a colon. -/
theorem Capability.head?_of_mem_abbreviationsOf {uri short : String}
    (h : short ∈ abbreviationsOf uri) : short.toList.head? = some ':' := by
  have hcolon : ∀ s : String, (":" ++ s).toList.head? = some ':' := fun s => by
    rw [String.toList_append]
    rfl
  have hbase : ∀ s : String, (":base:" ++ s).toList.head? = some ':' := fun s => by
    rw [String.toList_append]
    rfl
  unfold abbreviationsOf at h
  split at h
  · dsimp only at h
    split at h
    · rw [List.mem_singleton.mp h]
      exact hcolon _
    · rcases List.mem_cons.mp h with rfl | h
      · exact hcolon _
      · rw [List.mem_singleton.mp h]
        exact hcolon _
  · split at h
    · rcases List.mem_cons.mp h with rfl | h
      · rfl
      · rw [List.mem_singleton.mp h]
        exact hbase _
    · cases h

/-- A key that is no short form means the capability with that URI. -/
theorem Capability.answersTo_iff {key : String} (hfull : key.toList.head? ≠ some ':')
    (c : Capability) : c.answersTo key ↔ c.uri = key := by
  rw [answersTo, Bool.or_eq_true, beq_iff_eq, List.contains_iff_mem]
  constructor
  · rintro (h | h)
    · exact h
    · exact absurd (head?_of_mem_abbreviationsOf h) hfull
  · exact Or.inl

namespace CapabilitySet

theorem keyOf_eq_self {uri : String} (h : '?' ∉ uri.toList) : keyOf uri = uri := by
  rw [keyOf, cut_of_notMem h, String.ofList_toList]

/-- Parameters behind a URI do not count. -/
theorem keyOf_append {uri : String} (h : '?' ∉ uri.toList) (query : String) :
    keyOf (uri ++ "?" ++ query) = uri := by
  have hparts : (uri ++ "?" ++ query).toList = uri.toList ++ '?' :: query.toList := by
    rw [String.toList_append, String.toList_append, List.append_assoc]
    rfl
  rw [keyOf, hparts, cut_append_cons _ h, String.ofList_toList]

/-- **A full URI is looked up as such.** -/
theorem get?_of_full {set : CapabilitySet} {key : String}
    (hfull : (keyOf key).toList.head? ≠ some ':') :
    set.get? key = set.entries.find? (·.uri == keyOf key) := by
  have hanswers : (fun c : Capability => c.answersTo (keyOf key)) = (·.uri == keyOf key) := by
    funext c
    rw [Bool.eq_iff_iff, Capability.answersTo_iff hfull, beq_iff_eq]
  rw [get?, hanswers, Option.or_self]

theorem mem_uris {set : CapabilitySet} {uri : String} :
    uri ∈ set.uris ↔ ∃ c ∈ set.entries, c.uri = uri :=
  List.mem_map

/-- **A full URI names the capability of exactly that URI.** -/
theorem contains_iff {key : String} (hplain : '?' ∉ key.toList)
    (hfull : key.toList.head? ≠ some ':') (set : CapabilitySet) :
    set.contains key ↔ key ∈ set.uris := by
  have hkey := keyOf_eq_self hplain
  rw [contains, get?_of_full (hkey.symm ▸ hfull), hkey, List.find?_isSome, mem_uris]
  simp only [beq_iff_eq]

theorem contains_base (set : CapabilitySet) (v : BaseVersion) :
    set.contains v.uri ↔ v.uri ∈ set.uris := by
  cases v
  · exact contains_iff (by decide) (by decide) set
  · exact contains_iff (by decide) (by decide) set

/-! ## 2. The version that is shared -/

/-- Whether both sets hold the URI of a version. -/
def Share (own peer : CapabilitySet) (v : BaseVersion) : Prop :=
  v.uri ∈ own.uris ∧ v.uri ∈ peer.uris

instance (own peer : CapabilitySet) (v : BaseVersion) : Decidable (Share own peer v) :=
  inferInstanceAs (Decidable (_ ∧ _))

/-- Version 1.1 if both sets hold its URI, or else version 1.0 if they hold that one. -/
def shared (own peer : CapabilitySet) : Option BaseVersion :=
  if Share own peer .v1_1 then some .v1_1
  else if Share own peer .v1_0 then some .v1_0
  else none

theorem share_comm (own peer : CapabilitySet) (v : BaseVersion) :
    Share own peer v ↔ Share peer own v :=
  And.comm

theorem shared_comm (own peer : CapabilitySet) : shared own peer = shared peer own := by
  unfold shared
  simp only [share_comm own]

/-- **The negotiation comes to the version that is shared.** -/
theorem negotiate_eq (own peer : CapabilitySet) :
    (∃ v, shared own peer = some v ∧ own.negotiate peer = .ok v) ∨
      (shared own peer = none ∧ ∃ text, own.negotiate peer = .error (.capabilityExchange text)) := by
  have hboth : ∀ v : BaseVersion, (own.contains v.uri && peer.contains v.uri) =
      decide (Share own peer v) := by
    intro v
    rw [Bool.eq_iff_iff, Bool.and_eq_true, contains_base, contains_base, decide_eq_true_iff]
    rfl
  unfold negotiate shared
  simp only [hboth, List.find?_cons, List.find?_nil]
  by_cases hnew : Share own peer .v1_1
  · exact .inl ⟨.v1_1, by simp [hnew]⟩
  · by_cases hold : Share own peer .v1_0
    · exact .inl ⟨.v1_0, by simp [hnew, hold]⟩
    · exact .inr ⟨by simp [hnew, hold], _, by simp [hnew, hold]; rfl⟩

end CapabilitySet

end NetconfClient
