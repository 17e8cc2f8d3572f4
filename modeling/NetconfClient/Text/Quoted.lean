/-
  NetconfClient/Text/Quoted.lean
  ==============================
  **Quoted characters and texts in messages.**

  A quoted text is written between quotation marks, a quoted character between
  apostrophes.  NUL, tab, line feed, carriage return, the backslash and the
  enclosing mark take a backslash; a character that is not printable is written
  as `\u{…}` with its code point in lower-case hexadecimal.
-/
import NetconfClient.Text.Printable

namespace NetconfClient.Text

namespace Quoted

/-- The form of a character inside the mark `mark`. -/
def escapeChar (mark c : Char) : List Char :=
  if c = '\x00' then ['\\', '0']
  else if c = '\t' then ['\\', 't']
  else if c = '\r' then ['\\', 'r']
  else if c = '\n' then ['\\', 'n']
  else if c = '\\' || c = mark then ['\\', c]
  else if isPrintable c then [c]
  else ['\\', 'u', '\x7b'] ++ Nat.toDigits 16 c.toNat ++ ['\x7d']

/-- A character between apostrophes. -/
def char (c : Char) : String :=
  String.ofList ('\'' :: escapeChar '\'' c ++ ['\''])

/-- A text between quotation marks. -/
def text (cs : List Char) : String :=
  String.ofList ('"' :: cs.flatMap (escapeChar '"') ++ ['"'])

/-- A string between quotation marks. -/
def string (s : String) : String := text s.toList

/-- A list of strings, each between quotation marks, in square brackets. -/
def list (ss : List String) : String :=
  "[" ++ String.intercalate ", " (ss.map string) ++ "]"

example : char '\'' = "'\\''" := by decide +kernel
example : string "a\"'\n" = "\"a\\\"'\\n\"" := by decide +kernel
example : list ["a", "b"] = "[\"a\", \"b\"]" := by decide +kernel

end Quoted

end NetconfClient.Text
