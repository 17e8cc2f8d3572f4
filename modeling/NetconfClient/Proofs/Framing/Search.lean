/-
  NetconfClient/Proofs/Framing/Search.lean
  ========================================
  **The search for the terminator, resumed and from the first octet.**

  `find?` gives the first occurrence (`find?_eq_some_iff`).  A buffer is
  `Searched` up to an offset when no terminator begins in front of it, whatever
  is appended.  Every pull keeps that (`searched_pull`), and on such a buffer a
  pull is decided by the first terminator of the whole buffer
  (`pull_of_searched`): the offset saves work and changes nothing.  What has been
  pulled does not change when more octets arrive (`pull_append`).
-/
import NetconfClient.Framing.Terminated

namespace NetconfClient.Framing.Terminated

/-! ## 1. The first occurrence -/

theorem find?_eq_some_iff {bs : List UInt8} {i : Nat} :
    find? bs = some i ↔ terminator <+: bs.drop i ∧ ∀ j < i, ¬ terminator <+: bs.drop j := by
  induction bs generalizing i with
  | nil => simp [find?, terminator]
  | cons b bs ih =>
    rw [find?]
    by_cases hb : terminator <+: b :: bs
    · rw [if_pos (List.isPrefixOf_iff_prefix.mpr hb)]
      constructor
      · intro h
        cases h
        exact ⟨hb, fun j hj => absurd hj (Nat.not_lt_zero j)⟩
      · rintro ⟨-, hfirst⟩
        cases i with
        | zero => rfl
        | succ i => exact absurd hb (hfirst 0 (Nat.succ_pos i))
    · rw [if_neg (fun h => hb (List.isPrefixOf_iff_prefix.mp h))]
      cases i with
      | zero => simp [hb]
      | succ i =>
        rw [Option.map_eq_some_iff]
        constructor
        · rintro ⟨k, hk, hki⟩
          cases hki
          obtain ⟨hat, hfirst⟩ := ih.mp hk
          refine ⟨hat, fun j hj => ?_⟩
          cases j with
          | zero => exact hb
          | succ j => exact hfirst j (Nat.lt_of_succ_lt_succ hj)
        · rintro ⟨hat, hfirst⟩
          exact ⟨i, ih.mpr ⟨hat, fun j hj => hfirst (j + 1) (Nat.succ_lt_succ hj)⟩, rfl⟩

theorem find?_eq_none_iff {bs : List UInt8} :
    find? bs = none ↔ ∀ j, ¬ terminator <+: bs.drop j := by
  induction bs with
  | nil => simp [find?, terminator]
  | cons b bs ih =>
    rw [find?]
    by_cases hb : terminator <+: b :: bs
    · rw [if_pos (List.isPrefixOf_iff_prefix.mpr hb)]
      simp only [reduceCtorEq, false_iff]
      exact fun h => h 0 hb
    · rw [if_neg (fun h => hb (List.isPrefixOf_iff_prefix.mp h)), Option.map_eq_none_iff, ih]
      constructor
      · intro h j
        cases j with
        | zero => exact hb
        | succ j => exact h j
      · exact fun h j => h (j + 1)

theorem length_le_of_prefix_drop {bs : List UInt8} {j : Nat} (h : terminator <+: bs.drop j) :
    j + terminator.length ≤ bs.length := by
  have hlen := h.length_le
  have hpos : 0 < terminator.length := by decide
  rw [List.length_drop] at hlen
  omega

theorem add_length_le_of_find? {bs : List UInt8} {i : Nat} (h : find? bs = some i) :
    i + terminator.length ≤ bs.length :=
  length_le_of_prefix_drop (find?_eq_some_iff.mp h).1

/-- Whether a terminator begins at an octet shows once its last octet is there. -/
theorem prefix_drop_append_iff {bs : List UInt8} {j : Nat} (more : List UInt8)
    (h : j + terminator.length ≤ bs.length) :
    terminator <+: (bs ++ more).drop j ↔ terminator <+: bs.drop j := by
  rw [List.drop_append_of_le_length (by omega)]
  constructor
  · intro hp
    refine List.prefix_of_prefix_length_le hp (List.prefix_append _ _) ?_
    rw [List.length_drop]
    omega
  · exact fun hp => hp.trans (List.prefix_append _ _)

theorem find?_append {bs : List UInt8} {i : Nat} (h : find? bs = some i) (more : List UInt8) :
    find? (bs ++ more) = some i := by
  have hlen := add_length_le_of_find? h
  obtain ⟨hat, hfirst⟩ := find?_eq_some_iff.mp h
  refine find?_eq_some_iff.mpr ⟨(prefix_drop_append_iff more hlen).mpr hat, fun j hj hp => ?_⟩
  exact hfirst j hj ((prefix_drop_append_iff more (by omega)).mp hp)

/-! ## 2. Buffers that have been searched -/

/-- No terminator begins in the first `searched` octets, whatever is appended. -/
def Searched (searched : Nat) (buffer : List UInt8) : Prop :=
  ∀ j < searched, j + terminator.length ≤ buffer.length ∧ ¬ terminator <+: buffer.drop j

theorem searched_zero (buffer : List UInt8) : Searched 0 buffer :=
  fun j hj => absurd hj (Nat.not_lt_zero j)

theorem Searched.append {searched : Nat} {buffer : List UInt8} (h : Searched searched buffer)
    (more : List UInt8) : Searched searched (buffer ++ more) := by
  intro j hj
  obtain ⟨hlen, hno⟩ := h j hj
  refine ⟨?_, fun hp => hno ((prefix_drop_append_iff more hlen).mp hp)⟩
  rw [List.length_append]
  omega

theorem searched_of_find?_eq_none {buffer : List UInt8} (h : find? buffer = none) :
    Searched (buffer.length - overlap) buffer := by
  intro j hj
  refine ⟨?_, find?_eq_none_iff.mp h j⟩
  have : terminator.length = overlap + 1 := rfl
  omega

theorem Searched.le_of_find? {searched i : Nat} {buffer : List UInt8}
    (h : Searched searched buffer) (hi : find? buffer = some i) : searched ≤ i := by
  refine Nat.le_of_not_lt fun hlt => ?_
  exact (h i hlt).2 (find?_eq_some_iff.mp hi).1

/-- **A resumed search finds what the full search finds.** -/
theorem Searched.find?_drop {searched : Nat} {buffer : List UInt8} (h : Searched searched buffer) :
    (find? (buffer.drop searched)).map (searched + ·) = find? buffer := by
  cases hfull : find? buffer with
  | none =>
    have hnone : find? (buffer.drop searched) = none := by
      refine find?_eq_none_iff.mpr fun j => ?_
      rw [List.drop_drop]
      exact find?_eq_none_iff.mp hfull _
    rw [hnone]
    rfl
  | some i =>
    -- no terminator begins in the searched part, so the first one lies behind it
    have hle := h.le_of_find? hfull
    obtain ⟨hat, hfirst⟩ := find?_eq_some_iff.mp hfull
    have hsome : find? (buffer.drop searched) = some (i - searched) := by
      refine find?_eq_some_iff.mpr ⟨?_, fun j hj => ?_⟩
      · rwa [List.drop_drop, Nat.add_sub_cancel' hle]
      · rw [List.drop_drop]
        exact hfirst _ (by omega)
    rw [hsome, Option.map_some, Nat.add_sub_cancel' hle]

/-! ## 3. Pulling -/

theorem pull_of_searched {limit searched : Nat} {buffer : List UInt8}
    (h : Searched searched buffer) :
    pull limit searched buffer =
      match find? buffer with
      | some stop => found limit searched stop buffer
      | none => missed limit (buffer.length - overlap) buffer := by
  rw [← h.find?_drop, pull]
  cases find? (buffer.drop searched) <;> rfl

theorem searched_pull {limit searched : Nat} {buffer : List UInt8} (h : Searched searched buffer) :
    Searched (pull limit searched buffer).searched (pull limit searched buffer).buffer := by
  rw [pull_of_searched h]
  cases hfind : find? buffer with
  | some stop =>
    dsimp only [found]
    split
    · exact h
    · exact searched_zero _
  | none =>
    dsimp only [missed]
    split <;> exact searched_of_find?_eq_none hfind

/-! ## 4. More octets -/

/-- How a pull comes out when more octets stand behind the buffer.  Two refusals may
    leave different offsets behind. -/
def Pulled.Persists (limit : Nat) (more : List UInt8) (p q : Pulled) : Prop :=
  match p.result with
  | .message _ => q = { p with buffer := p.buffer ++ more }
  | .incomplete =>
    q = pull limit p.searched (p.buffer ++ more) ∨
      (∃ error, q.result = .broken error) ∧
        ∃ error, (pull limit p.searched (p.buffer ++ more)).result = .broken error
  | .broken _ => ∃ error, q.result = .broken error

theorem found_eq_or_broken (limit searched searched' stop : Nat) (buffer : List UInt8) :
    found limit searched stop buffer = found limit searched' stop buffer ∨
      (∃ error, (found limit searched stop buffer).result = .broken error) ∧
        ∃ error, (found limit searched' stop buffer).result = .broken error := by
  unfold found
  by_cases hlimit : stop > limit
  · rw [if_pos hlimit, if_pos hlimit]
    exact Or.inr ⟨⟨_, rfl⟩, ⟨_, rfl⟩⟩
  · rw [if_neg hlimit, if_neg hlimit]
    exact Or.inl rfl

/-- **Octets that arrive later do not change what has been pulled.** -/
theorem pull_append {limit searched : Nat} {buffer : List UInt8} (h : Searched searched buffer)
    (more : List UInt8) :
    (pull limit searched buffer).Persists limit more (pull limit searched (buffer ++ more)) := by
  rw [pull_of_searched h, pull_of_searched (h.append more)]
  cases hfind : find? buffer with
  | some stop =>
    have hlen := add_length_le_of_find? hfind
    rw [find?_append hfind]
    dsimp only [found]
    by_cases hlimit : stop > limit
    · rw [if_pos hlimit, if_pos hlimit]
      exact ⟨_, rfl⟩
    · rw [if_neg hlimit, if_neg hlimit, List.take_append_of_le_length (by omega),
        List.drop_append_of_le_length hlen]
      rfl
  | none =>
    have hsearched := searched_of_find?_eq_none hfind
    dsimp only [missed]
    by_cases hlimit : buffer.length - overlap > limit
    · -- a terminator that is completed now begins past the limit
      rw [if_pos hlimit]
      cases hmore : find? (buffer ++ more) with
      | some stop =>
        have hle := (hsearched.append more).le_of_find? hmore
        refine ⟨.tooLarge limit, ?_⟩
        exact congrArg Pulled.result (if_pos (show stop > limit by omega))
      | none =>
        refine ⟨.tooLarge limit, ?_⟩
        dsimp only
        rw [if_pos (by rw [List.length_append]; omega)]
    · rw [if_neg hlimit]
      dsimp only [Pulled.Persists]
      -- both pulls find the same terminator and may differ in the offset they came from
      rw [pull_of_searched (hsearched.append more)]
      cases find? (buffer ++ more) with
      | some stop => exact found_eq_or_broken limit _ _ stop _
      | none => exact Or.inl rfl

end NetconfClient.Framing.Terminated
