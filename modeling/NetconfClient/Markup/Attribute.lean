/-
  NetconfClient/Markup/Attribute.lean
  ===================================
  **Attributes of a start tag.**

  They are read from the left up to the first fault.  A key is everything up to
  the next `=` or blank, its value stands between equal quotes, and no blank is
  needed behind the closing quote.  A fault is placed by the number of octets in
  front of it, which is what the tag has less what is left of it.
-/
import NetconfClient.Markup.Entity
import NetconfClient.Text.Blank
import NetconfClient.Text.Cut

namespace NetconfClient.Markup

open Text

/-- Why the attributes of a tag cannot be read. -/
inductive AttributeError where
  /-- No `=` behind the key. -/
  | noEquals (pos : Nat)
  /-- A key that an earlier attribute has. -/
  | duplicate (pos earlier : Nat)
  /-- Nothing behind the `=`. -/
  | noValue (pos : Nat)
  /-- A value that begins with no quote. -/
  | noQuote (pos : Nat)
  /-- A value without its closing quote. -/
  | unclosed (pos : Nat) (quote : Char)
  deriving DecidableEq, Repr

namespace AttributeError

/-- The wording behind the position. -/
def detail : AttributeError → Nat × String
  | noEquals pos => (pos, "attribute key must be directly followed by `=` or space")
  | duplicate pos earlier =>
    (pos, "duplicated attribute, previous declaration at position " ++ toString earlier)
  | noValue pos => (pos, "`=` must be followed by an attribute value")
  | noQuote pos => (pos, "attribute value must be enclosed in `\"` or `'`")
  | unclosed pos quote =>
    (pos, "missing closing quote `" ++ quote.toString ++ "` in attribute value")

/-- The wording of each cause. -/
def message (e : AttributeError) : String :=
  "error while parsing attribute: position " ++ toString e.detail.1 ++ ": " ++ e.detail.2

end AttributeError

/-- An attribute as it is written. -/
structure Attribute where
  key : List Char
  value : List Char
  deriving DecidableEq, Repr

/-- The attributes of a tag up to the first fault. -/
inductive Attributes where
  | none
  | failed (error : AttributeError)
  | more (attr : Attribute) (rest : Attributes)
  deriving Repr

/-- Whether a character ends a key. -/
def endsKey (c : Char) : Bool := c == '=' || isMarkupBlank c

/-- A key and what follows it.  Its first character may be any. -/
def splitKey : List Char → List Char × List Char
  | [] => ([], [])
  | c :: cs => (c :: cs.takeWhile (!endsKey ·), cs.dropWhile (!endsKey ·))

/-- What follows a key: its value, and the characters behind the closing quote.
    `place` tells the position of what is left. -/
def readValue (place : List Char → Nat) (behindEquals : List Char) :
    Except AttributeError (List Char × List Char) :=
  match behindEquals.dropWhile isMarkupBlank with
  | [] => .error (.noValue (place []))
  | q :: cs =>
    if q = '"' ∨ q = '\'' then
      match cut q cs with
      | (value, some rest) => .ok (value, rest)
      | (_, none) => .error (.unclosed (place []) q)
    else .error (.noQuote (place (q :: cs)))

/-- Reads the attribute at the beginning of a text that does not begin with a blank,
    given the keys read before it and their positions. -/
def readAttribute (place : List Char → Nat) (earlier : List (List Char × Nat)) (cs : List Char) :
    Except AttributeError (Attribute × List Char) :=
  match splitKey cs with
  | (key, behindKey) =>
    match behindKey.dropWhile isMarkupBlank with
    | [] => .error (.noEquals (place []))
    | c :: behindEquals =>
      if c ≠ '=' then .error (.noEquals (place (c :: behindEquals)))
      else
        match earlier.lookup key with
        | some pos => .error (.duplicate (place cs) pos)
        | none =>
          match readValue place behindEquals with
          | .ok (value, rest) => .ok (⟨key, value⟩, rest)
          | .error e => .error e

theorem length_splitKey_le (cs : List Char) : (splitKey cs).2.length ≤ cs.length := by
  cases cs with
  | nil => simp [splitKey]
  | cons c cs => exact Nat.le_succ_of_le (List.dropWhile_sublist _).length_le

/-- A value takes characters. -/
theorem readValue_length {place : List Char → Nat} {cs value rest : List Char}
    (h : readValue place cs = .ok (value, rest)) : rest.length < cs.length := by
  have hle : (cs.dropWhile isMarkupBlank).length ≤ cs.length := (List.dropWhile_sublist _).length_le
  unfold readValue at h
  split at h
  · cases h
  · next q tail htail =>
    rw [htail, List.length_cons] at hle
    split at h
    · split at h
      · next front back hcut =>
        simp only [Except.ok.injEq, Prod.mk.injEq] at h
        obtain ⟨-, rfl⟩ := h
        have hback : (cut q tail).2 = some back := by rw [hcut]
        have := congrArg List.length (cut_some hback)
        simp only [List.length_append, List.length_cons] at this
        omega
      · cases h
    · cases h

/-- An attribute takes characters. -/
theorem readAttribute_length {place : List Char → Nat} {earlier : List (List Char × Nat)}
    {cs rest : List Char} {attr : Attribute}
    (h : readAttribute place earlier cs = .ok (attr, rest)) : rest.length < cs.length := by
  have hkey := length_splitKey_le cs
  unfold readAttribute at h
  split at h
  next key behindKey hsplit =>
    simp only [hsplit] at hkey
    have hle : (behindKey.dropWhile isMarkupBlank).length ≤ behindKey.length :=
      (List.dropWhile_sublist _).length_le
    split at h
    · cases h
    · next c tail htail =>
      rw [htail, List.length_cons] at hle
      split at h
      · cases h
      · split at h
        · cases h
        · split at h
          · next value rest' hvalue =>
            simp only [Except.ok.injEq, Prod.mk.injEq] at h
            obtain ⟨-, rfl⟩ := h
            have := readValue_length hvalue
            omega
          · cases h

/-- Reads attributes, given the keys read before and their positions. -/
def readAttributes (place : List Char → Nat) (earlier : List (List Char × Nat)) (cs : List Char) :
    Attributes :=
  match _hcs : cs.dropWhile isMarkupBlank with
  | [] => .none
  | c :: tail =>
    match _h : readAttribute place earlier (c :: tail) with
    | .error e => .failed e
    | .ok (attr, rest) =>
      .more attr (readAttributes place ((attr.key, place (c :: tail)) :: earlier) rest)
termination_by cs.length
decreasing_by
  have hle : (cs.dropWhile isMarkupBlank).length ≤ cs.length := (List.dropWhile_sublist _).length_le
  rw [_hcs] at hle
  have := readAttribute_length _h
  omega

/-! ## Names -/

/-- The characters up to the first blank. -/
def tagName (content : List Char) : List Char := content.takeWhile (!isMarkupBlank ·)

/-- What follows the name of a tag. -/
def behindName (content : List Char) : List Char := content.dropWhile (!isMarkupBlank ·)

/-- The attributes of a tag with that content. -/
def attributesOf (content : List Char) : Attributes :=
  readAttributes (fun rest => Utf8.size content - Utf8.size rest) [] (behindName content)

/-- A name without its namespace prefix: what follows the first colon. -/
def localName (name : List Char) : List Char :=
  match cut ':' name with
  | (_, some rest) => rest
  | (whole, none) => whole

/-- Whether an attribute declares a namespace. -/
def declaresNamespace (key : List Char) : Bool :=
  key == "xmlns".toList || "xmlns:".toList.isPrefixOf key

end NetconfClient.Markup
