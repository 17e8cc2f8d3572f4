/-
  NetconfClient/Text/Utf8.lean
  ============================
  **UTF-8.**

  `encode` writes characters as octets.  `decode` never fails: where the octets
  are no UTF-8, each maximal piece that could still have begun a character is
  read as one U+FFFD.  It runs over the octets one at a time and remembers only
  the character it is inside of (`Unfinished`), so a text may be cut anywhere
  before it is decoded as a whole.  `decode?` accepts exactly the octets that
  are the encoding of a text.
-/

namespace NetconfClient.Text.Utf8

/-! ## 1. Encoding -/

/-- The octets of one character. -/
def encodeChar (c : Char) : List UInt8 :=
  let n := c.toNat
  if n < 0x80 then [UInt8.ofNat n]
  else if n < 0x800 then
    [UInt8.ofNat (0xC0 + n / 64), UInt8.ofNat (0x80 + n % 64)]
  else if n < 0x10000 then
    [UInt8.ofNat (0xE0 + n / 4096), UInt8.ofNat (0x80 + n / 64 % 64), UInt8.ofNat (0x80 + n % 64)]
  else
    [UInt8.ofNat (0xF0 + n / 262144), UInt8.ofNat (0x80 + n / 4096 % 64),
      UInt8.ofNat (0x80 + n / 64 % 64), UInt8.ofNat (0x80 + n % 64)]

/-- The octets of a text. -/
def encode (cs : List Char) : List UInt8 := cs.flatMap encodeChar

/-- The octets of a string. -/
def encodeString (s : String) : List UInt8 := encode s.toList

@[simp] theorem encode_nil : encode [] = [] := rfl

@[simp] theorem encode_cons (c : Char) (cs : List Char) :
    encode (c :: cs) = encodeChar c ++ encode cs := rfl

@[simp] theorem encode_append (a b : List Char) : encode (a ++ b) = encode a ++ encode b := by
  simp [encode]

/-- The number of octets that a character takes. -/
def charSize (c : Char) : Nat := (encodeChar c).length

/-- The number of octets that a text takes. -/
def size (cs : List Char) : Nat := (encode cs).length

theorem size_cons (c : Char) (cs : List Char) : size (c :: cs) = charSize c + size cs := by
  simp [size, charSize]

theorem size_append (a b : List Char) : size (a ++ b) = size a + size b := by
  simp [size]

/-- The first octet of a character, read as a character of its own. -/
def firstOctet (c : Char) : Char :=
  match encodeChar c with
  | [] => c
  | b :: _ => Char.ofNat b.toNat

/-! ## 2. Decoding -/

/-- What stands for octets that are no UTF-8. -/
def replacement : Char := '\uFFFD'

/-- A character whose first octets have been read: the bits so far, the number
    of octets still owed, and the range that the next one must lie in. -/
structure Unfinished where
  bits : Nat
  owed : Nat
  low : UInt8
  high : UInt8
  deriving DecidableEq, Repr

/-- What the first octet of a character says. -/
inductive Lead where
  /-- A whole character. -/
  | whole (c : Char)
  /-- The beginning of a longer one. -/
  | opens (u : Unfinished)
  /-- No character begins with this octet. -/
  | stray
  deriving DecidableEq, Repr

/-- Reads the first octet of a character. -/
def lead (b : UInt8) : Lead :=
  let n := b.toNat
  if n < 0x80 then .whole (Char.ofNat n)
  else if n < 0xC2 then .stray
  else if n < 0xE0 then .opens ⟨n - 0xC0, 1, 0x80, 0xBF⟩
  else if n = 0xE0 then .opens ⟨0, 2, 0xA0, 0xBF⟩
  else if n = 0xED then .opens ⟨0x0D, 2, 0x80, 0x9F⟩
  else if n < 0xF0 then .opens ⟨n - 0xE0, 2, 0x80, 0xBF⟩
  else if n = 0xF0 then .opens ⟨0, 3, 0x90, 0xBF⟩
  else if n < 0xF4 then .opens ⟨n - 0xF0, 3, 0x80, 0xBF⟩
  else if n = 0xF4 then .opens ⟨4, 3, 0x80, 0x8F⟩
  else .stray

/-- Decodes octets, given the character that the octets before them began. -/
def decodeFrom : Option Unfinished → List UInt8 → List Char
  | none, [] => []
  | some _, [] => [replacement]
  | none, b :: bs =>
    match lead b with
    | .whole c => c :: decodeFrom none bs
    | .opens u => decodeFrom (some u) bs
    | .stray => replacement :: decodeFrom none bs
  | some u, b :: bs =>
    if u.low ≤ b ∧ b ≤ u.high then
      let bits := u.bits * 64 + (b.toNat - 0x80)
      if u.owed = 1 then Char.ofNat bits :: decodeFrom none bs
      else decodeFrom (some ⟨bits, u.owed - 1, 0x80, 0xBF⟩) bs
    else
      match lead b with
      | .whole c => replacement :: c :: decodeFrom none bs
      | .opens v => replacement :: decodeFrom (some v) bs
      | .stray => replacement :: replacement :: decodeFrom none bs

/-- The text that octets stand for, U+FFFD in place of what is no UTF-8. -/
def decode (bs : List UInt8) : List Char := decodeFrom none bs

/-- The string that octets stand for, U+FFFD in place of what is no UTF-8. -/
def decodeString (bs : List UInt8) : String := String.ofList (decode bs)

/-- The text whose encoding the octets are, if there is one. -/
def decode? (bs : List UInt8) : Option (List Char) :=
  let cs := decode bs
  if encode cs = bs then some cs else none

theorem encode_of_decode? {bs : List UInt8} {cs : List Char} (h : decode? bs = some cs) :
    encode cs = bs := by
  by_cases heq : encode (decode bs) = bs
  · simp only [decode?, heq, if_true, Option.some.injEq] at h
    exact h ▸ heq
  · simp [decode?, heq] at h

end NetconfClient.Text.Utf8
