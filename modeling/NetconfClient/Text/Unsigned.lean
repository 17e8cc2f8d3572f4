/-
  NetconfClient/Text/Unsigned.lean
  ================================
  **Unsigned decimal numbers.**

  An optional single `+`, then one or more ASCII digits, leading zeros allowed,
  and a bound that the value must not pass.  The text is read from the left, so
  of two faults the one further left is reported; at one character a foreign
  character counts before the overflow.
-/

namespace NetconfClient.Text

/-- Why a text is no unsigned number. -/
inductive UnsignedError where
  | empty
  | foreignCharacter
  | tooLarge
  deriving DecidableEq, Repr

/-- The wording of each cause. -/
def UnsignedError.message : UnsignedError → String
  | .empty => "cannot parse integer from empty string"
  | .foreignCharacter => "invalid digit found in string"
  | .tooLarge => "number too large to fit in target type"

namespace Unsigned

/-- The largest value of 16 bits. -/
def max16 : Nat := 65535

/-- The largest value of 32 bits. -/
def max32 : Nat := 4294967295

/-- The largest value of 64 bits. -/
def max64 : Nat := 18446744073709551615

/-- Reads digits behind the value read so far. -/
def readDigits (bound : Nat) : Nat → List Char → Except UnsignedError Nat
  | value, [] => .ok value
  | value, c :: cs =>
    if c.isDigit then
      let next := value * 10 + (c.toNat - '0'.toNat)
      if next ≤ bound then readDigits bound next cs else .error .tooLarge
    else .error .foreignCharacter

/-- Reads an unsigned number of at most `bound`. -/
def parse (bound : Nat) : List Char → Except UnsignedError Nat
  | [] => .error .empty
  | ['+'] => .error .foreignCharacter
  | '+' :: cs => readDigits bound 0 cs
  | cs => readDigits bound 0 cs

example : parse max16 "+00080".toList = .ok 80 := rfl
example : parse max16 "99999x".toList = .error .tooLarge := rfl
example : parse max16 "6553x".toList = .error .foreignCharacter := rfl

end Unsigned

end NetconfClient.Text
