/-
  NetconfClient/Proofs/Text/Dictionary.lean
  =========================================
  **What is looked up is what was put there last.**

  A value that is put under a key is found under it (`get?_insert_self`) and
  changes nothing under any other key (`get?_insert_of_ne`).  A dictionary holds
  only pairs that were put into it (`mem_ofPairs`), each once, and pairs in the
  order of their keys stay as they are (`entries_ofPairs`).  Dictionaries with
  the same look-ups are equal (`ext_get?`), so two lists of pairs make the same
  dictionary exactly if they agree on the last value under each key
  (`ofPairs_eq_iff`).
-/
import Mathlib.Algebra.GroupWithZero.Nat
import Mathlib.Algebra.Order.BigOperators.Group.List
import Mathlib.Algebra.Order.Group.Nat
import Mathlib.Data.List.Induction
import Mathlib.Data.List.Perm.Subperm
import NetconfClient.Proofs.Association
import NetconfClient.Text.Dictionary

namespace NetconfClient.Text.Dictionary

variable {key other value : String}

/-! ## 1. Looking up -/

theorem find?_put_self (entries : List (String × String)) :
    (put key value entries).find? (·.1 == key) = some (key, value) := by
  induction entries with
  | nil => simp [put]
  | cons entry rest ih =>
    obtain ⟨k, v⟩ := entry
    rw [put]
    split
    · simp
    · split
      · simp
      · next hne =>
        rw [List.find?_cons_of_neg (by simpa using Ne.symm hne)]
        exact ih

theorem find?_put_of_ne (h : other ≠ key) (entries : List (String × String)) :
    (put key value entries).find? (·.1 == other) = entries.find? (·.1 == other) := by
  have hskip : ∀ (v : String) (rest : List (String × String)),
      ((key, v) :: rest).find? (·.1 == other) = rest.find? (·.1 == other) := by
    intro v rest
    exact List.find?_cons_of_neg (by simpa using Ne.symm h)
  induction entries with
  | nil => simp [put, Ne.symm h]
  | cons entry rest ih =>
    obtain ⟨k, v⟩ := entry
    rw [put]
    split
    · exact hskip value _
    · split
      · next heq =>
        subst heq
        rw [hskip, hskip]
      · rw [List.find?_cons, List.find?_cons, ih]

@[simp] theorem get?_insert_self (dict : Dictionary) (key value : String) :
    (dict.insert key value).get? key = some value := by
  rw [get?, insert, find?_put_self]
  rfl

theorem get?_insert_of_ne (h : other ≠ key) (dict : Dictionary) :
    (dict.insert key value).get? other = dict.get? other := by
  rw [get?, insert, find?_put_of_ne h, get?]

/-- Entries under other keys change nothing. -/
theorem get?_foldl_insert {pairs : List (String × String)} (h : ∀ pair ∈ pairs, key ≠ pair.1)
    (dict : Dictionary) :
    (pairs.foldl (fun dict pair => dict.insert pair.1 pair.2) dict).get? key = dict.get? key := by
  induction pairs generalizing dict with
  | nil => rfl
  | cons pair pairs ih =>
    rw [List.foldl_cons, ih fun p hp => h p (List.mem_cons_of_mem pair hp)]
    exact get?_insert_of_ne (h pair List.mem_cons_self) dict

/-! ## 2. Dictionaries made of pairs -/

theorem ext {dict other : Dictionary} (h : dict.entries = other.entries) : dict = other := by
  obtain ⟨entries, ordered⟩ := dict
  obtain ⟨entries', ordered'⟩ := other
  cases h
  rfl

variable {pairs : List (String × String)} {entry : String × String}

theorem mem_foldl_insert {dict : Dictionary}
    (h : entry ∈ (pairs.foldl (fun dict pair => dict.insert pair.1 pair.2) dict).entries) :
    entry ∈ dict.entries ∨ entry ∈ pairs := by
  induction pairs generalizing dict with
  | nil => exact .inl h
  | cons pair pairs ih =>
    rcases ih h with hold | hnew
    · rcases mem_put hold with rfl | hold
      · exact .inr List.mem_cons_self
      · exact .inl hold
    · exact .inr (List.mem_cons_of_mem pair hnew)

/-- **A dictionary holds only what was put into it.** -/
theorem mem_ofPairs (h : entry ∈ (ofPairs pairs).entries) : entry ∈ pairs :=
  (mem_foldl_insert h).resolve_left List.not_mem_nil

/-- An entry behind all others is put there. -/
theorem put_of_forall_lt {entries : List (String × String)} (h : ∀ e ∈ entries, e.1 < key) :
    put key value entries = entries ++ [(key, value)] := by
  induction entries with
  | nil => rfl
  | cons head rest ih =>
    obtain ⟨k, v⟩ := head
    have hlt : k < key := h (k, v) List.mem_cons_self
    rw [put, if_neg (String.lt_asymm hlt), if_neg (String.ne_of_lt hlt).symm,
      ih fun e he => h e (List.mem_cons_of_mem _ he), List.cons_append]

theorem entries_foldl_insert (dict : Dictionary)
    (h : (dict.entries ++ pairs).Pairwise fun a b => a.1 < b.1) :
    (pairs.foldl (fun dict pair => dict.insert pair.1 pair.2) dict).entries =
      dict.entries ++ pairs := by
  induction pairs generalizing dict with
  | nil => rw [List.append_nil, List.foldl_nil]
  | cons pair pairs ih =>
    have hlast : ∀ e ∈ dict.entries, e.1 < pair.1 := fun e he =>
      (List.pairwise_append.mp h).2.2 e he pair List.mem_cons_self
    have hput : (dict.insert pair.1 pair.2).entries = dict.entries ++ [pair] :=
      put_of_forall_lt hlast
    rw [List.foldl_cons, ih, hput, List.append_assoc, List.singleton_append]
    rwa [hput, List.append_assoc, List.singleton_append]

/-- **Pairs in the order of their keys stay as they are.** -/
theorem entries_ofPairs (h : pairs.Pairwise fun a b => a.1 < b.1) :
    (ofPairs pairs).entries = pairs :=
  entries_foldl_insert empty h

/-- Entries are not more than the pairs that they come from. -/
theorem sum_ofPairs_le (size : String × String → Nat) (pairs : List (String × String)) :
    ((ofPairs pairs).entries.map size).sum ≤ (pairs.map size).sum := by
  have hnodup : (ofPairs pairs).entries.Nodup :=
    (ofPairs pairs).ordered.imp fun hlt heq => String.ne_of_lt hlt (congrArg Prod.fst heq)
  obtain ⟨kept, hperm, hkept⟩ := List.subperm_of_subset hnodup fun _ h => mem_ofPairs h
  rw [← (hperm.map size).sum_eq]
  exact (hkept.map size).sum_le_sum fun n _ => Nat.zero_le n

/-! ## 3. Dictionaries as maps -/

theorem nodup_keys (dict : Dictionary) : (dict.entries.map (·.1)).Nodup :=
  List.pairwise_map.mpr (dict.ordered.imp String.ne_of_lt)

theorem get?_eq_lookup (dict : Dictionary) (key : String) :
    dict.get? key = dict.entries.lookup key := by
  rw [get?]
  induction dict.entries with
  | nil => rfl
  | cons entry rest ih =>
    obtain ⟨k, v⟩ := entry
    rw [List.find?_cons, List.lookup_cons, BEq.comm (a := key)]
    cases hk : k == key with
    | true => rfl
    | false => exact ih

theorem get?_eq_some_iff {dict : Dictionary} :
    dict.get? key = some value ↔ (key, value) ∈ dict.entries := by
  rw [get?_eq_lookup, Association.lookup_eq_some_iff_mem dict.nodup_keys]

/-- **Dictionaries with the same look-ups are equal.** -/
theorem ext_get? {dict other : Dictionary} (h : ∀ key, dict.get? key = other.get? key) :
    dict = other := by
  have hmem : ∀ e, e ∈ dict.entries ↔ e ∈ other.entries := by
    rintro ⟨k, v⟩
    rw [← get?_eq_some_iff, ← get?_eq_some_iff, h k]
  have hperm : dict.entries.Perm other.entries :=
    (List.perm_ext_iff_of_nodup dict.nodup_keys.of_map other.nodup_keys.of_map).mpr hmem
  exact ext (hperm.eq_of_pairwise (fun a b _ _ hab hba => absurd hba (String.lt_asymm hab))
    dict.ordered other.ordered)

/-- The value that pairs give a key: of several the last. -/
def lastValue (pairs : List (String × String)) (key : String) : Option String :=
  pairs.reverse.lookup key

/-- **Of several values under one key the last is found.** -/
theorem get?_ofPairs (pairs : List (String × String)) (key : String) :
    (ofPairs pairs).get? key = lastValue pairs key := by
  induction pairs using List.reverseRecOn with
  | nil => rfl
  | append_singleton pairs pair ih =>
    obtain ⟨k, v⟩ := pair
    have hlast : ofPairs (pairs ++ [(k, v)]) = (ofPairs pairs).insert k v := List.foldl_concat ..
    rw [hlast, lastValue, List.reverse_concat, List.lookup_cons]
    by_cases hk : key = k
    · subst hk
      rw [get?_insert_self, beq_self_eq_true]
    · rw [get?_insert_of_ne hk, beq_eq_false_iff_ne.mpr hk, ih, lastValue]

/-- **Two lists of pairs make the same dictionary** exactly if they agree on the last value
    under each key. -/
theorem ofPairs_eq_iff {others : List (String × String)} :
    ofPairs pairs = ofPairs others ↔ ∀ key, lastValue pairs key = lastValue others key := by
  constructor
  · intro h key
    rw [← get?_ofPairs, h, get?_ofPairs]
  · intro h
    refine ext_get? ?_
    intro key
    rw [get?_ofPairs, get?_ofPairs, h key]

/-- The order of pairs whose keys do not repeat does not matter. -/
theorem lastValue_perm {others : List (String × String)} (h : pairs.Perm others)
    (hkeys : (pairs.map (·.1)).Nodup) (key : String) :
    lastValue pairs key = lastValue others key := by
  have hreverse := (List.reverse_perm pairs).trans (h.trans (List.reverse_perm others).symm)
  refine Association.lookup_perm hreverse ?_
  rw [List.map_reverse, List.nodup_reverse]
  exact hkeys

end NetconfClient.Text.Dictionary
