/-
  NetconfClient/Capability/Set.lean
  =================================
  **The capabilities that a peer holds.**

  An insertion-ordered map keyed by URI: a capability whose URI is present takes
  the place of the earlier one, any other comes last (`uris_insert`), so no URI
  occurs twice.  A look-up prefers the capability with exactly the URI asked for
  to one that merely answers to it.
-/
import NetconfClient.Capability.Basic

namespace NetconfClient

open Text

/-- Puts a capability in the place of the one with its URI, or last. -/
def Capability.putInto (c : Capability) : List Capability → List Capability
  | [] => [c]
  | d :: rest => if d.uri = c.uri then c :: rest else d :: c.putInto rest

/-- The URIs after `putInto`. -/
theorem Capability.map_uri_putInto (c : Capability) (entries : List Capability) :
    (c.putInto entries).map (·.uri) =
      if c.uri ∈ entries.map (·.uri) then entries.map (·.uri)
      else entries.map (·.uri) ++ [c.uri] := by
  induction entries with
  | nil => simp [putInto]
  | cons d rest ih =>
    simp only [putInto]
    split
    · next h => simp [h]
    · next h =>
      simp only [List.map_cons, ih, List.mem_cons, Ne.symm h, false_or]
      split <;> simp

/-- Capabilities with distinct URIs, in the order in which these first came. -/
structure CapabilitySet where
  entries : List Capability
  distinct : (entries.map (·.uri)).Nodup
  deriving DecidableEq, Repr

namespace CapabilitySet

/-- No capabilities. -/
def empty : CapabilitySet := ⟨[], .nil⟩

/-- Adds a capability, in place of one with the same URI. -/
def insert (set : CapabilitySet) (c : Capability) : CapabilitySet where
  entries := c.putInto set.entries
  distinct := by
    rw [Capability.map_uri_putInto]
    split
    · exact set.distinct
    · next h =>
      refine List.nodup_append.2 ⟨set.distinct, List.pairwise_singleton _ _, ?_⟩
      intro a ha b hb
      rw [List.mem_singleton.1 hb]
      exact fun heq => h (heq ▸ ha)

/-- The URIs of a set. -/
def uris (set : CapabilitySet) : List String := set.entries.map (·.uri)

/-- A URI that is present keeps its place, any other comes last. -/
theorem uris_insert (set : CapabilitySet) (c : Capability) :
    (set.insert c).uris = if c.uri ∈ set.uris then set.uris else set.uris ++ [c.uri] :=
  Capability.map_uri_putInto c set.entries

/-- Reads capabilities into a set, up to the first that cannot be read. -/
def insertAll (set : CapabilitySet) : List String → Except Fault CapabilitySet
  | [] => .ok set
  | s :: rest =>
    match Capability.parse s with
    | .ok c => (set.insert c).insertAll rest
    | .error fault => .error fault

/-- The set of capabilities that texts stand for. -/
def parse (texts : List String) : Except Fault CapabilitySet := empty.insertAll texts

/-- The part of a key that is looked up: parameters do not count. -/
def keyOf (key : String) : String := String.ofList (cut '?' key.toList).1

/-- The capability with the URI asked for, or else the first that answers to it. -/
def get? (set : CapabilitySet) (key : String) : Option Capability :=
  (set.entries.find? (·.uri == keyOf key)).or
    (set.entries.find? (·.answersTo (keyOf key)))

/-- Whether a URI or a short form names a capability of the set. -/
def contains (set : CapabilitySet) (key : String) : Bool := (set.get? key).isSome

/-- The texts of all capabilities, as they are announced. -/
def announcements (set : CapabilitySet) : List String := set.entries.map (·.render)

end CapabilitySet

end NetconfClient
