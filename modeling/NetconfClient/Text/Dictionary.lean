/-
  NetconfClient/Text/Dictionary.lean
  ==================================
  **Dictionaries from strings to strings.**

  The entries are kept in the order of their
  keys (by code point), one for each key, so two maps with the same entries are
  equal and are written in the same way.
-/

namespace NetconfClient.Text

/-- Entries in the order of their keys. -/
structure Dictionary where
  entries : List (String × String)
  ordered : entries.Pairwise (fun a b => a.1 < b.1)
  deriving DecidableEq, Repr

namespace Dictionary

/-- No entries. -/
def empty : Dictionary := ⟨[], .nil⟩

/-- Puts a value under a key into ordered entries. -/
def put (key value : String) : List (String × String) → List (String × String)
  | [] => [(key, value)]
  | (k, v) :: rest =>
    if key < k then (key, value) :: (k, v) :: rest
    else if key = k then (key, value) :: rest
    else (k, v) :: put key value rest

/-- The keys after `put`. -/
theorem mem_put {key value : String} {entry : String × String} {entries : List (String × String)}
    (h : entry ∈ put key value entries) : entry = (key, value) ∨ entry ∈ entries := by
  induction entries with
  | nil => simpa [put] using h
  | cons head rest ih =>
    obtain ⟨k, v⟩ := head
    simp only [put] at h
    split at h
    · simpa using h
    · split at h
      · rcases List.mem_cons.1 h with h | h
        · exact .inl h
        · exact .inr (List.mem_cons_of_mem _ h)
      · rcases List.mem_cons.1 h with h | h
        · exact .inr (h ▸ List.mem_cons_self)
        · rcases ih h with h | h
          · exact .inl h
          · exact .inr (List.mem_cons_of_mem _ h)

theorem pairwise_put {key value : String} {entries : List (String × String)}
    (h : entries.Pairwise (fun a b => a.1 < b.1)) :
    (put key value entries).Pairwise (fun a b => a.1 < b.1) := by
  induction entries with
  | nil => simp [put]
  | cons head rest ih =>
    obtain ⟨k, v⟩ := head
    obtain ⟨hk, hrest⟩ := List.pairwise_cons.1 h
    simp only [put]
    split
    · next hlt =>
      refine List.pairwise_cons.2 ⟨fun entry hentry => ?_, h⟩
      rcases List.mem_cons.1 hentry with rfl | hentry
      · exact hlt
      · exact String.lt_trans hlt (hk entry hentry)
    · next hnlt =>
      split
      · next heq => subst heq; exact List.pairwise_cons.2 ⟨hk, hrest⟩
      · next hne =>
        refine List.pairwise_cons.2 ⟨fun entry hentry => ?_, ih hrest⟩
        rcases mem_put hentry with rfl | hentry
        · exact Decidable.byContradiction fun hle =>
            hne (String.le_antisymm hle hnlt)
        · exact hk entry hentry

/-- Puts a value under a key, in place of an earlier one. -/
def insert (dict : Dictionary) (key value : String) : Dictionary :=
  ⟨put key value dict.entries, pairwise_put dict.ordered⟩

/-- The value under a key. -/
def get? (dict : Dictionary) (key : String) : Option String :=
  (dict.entries.find? (·.1 == key)).map (·.2)

/-- Entries put one after the other; of two values under one key the later stays. -/
def ofPairs (pairs : List (String × String)) : Dictionary :=
  pairs.foldl (fun dict pair => dict.insert pair.1 pair.2) empty

end Dictionary

end NetconfClient.Text
