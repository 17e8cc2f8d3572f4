/-
  NetconfClient/CommandLine/Word.lean
  ===================================
  **The words of a command line, by their form.**

  `--` ends the options, `--name` and `--name=value` are long options, `-abc` are
  short ones in a row.  Everything else is plain, also a lone `-`.
-/
import NetconfClient.Text.Cut

namespace NetconfClient.CommandLine

open Text

/-- A word by its form. -/
inductive Word where
  /-- No options behind this. -/
  | escape
  | long (name : List Char) (value : Option String)
  | short (letters : List Char)
  | plain (text : String)
  deriving DecidableEq, Repr

/-- The form of a word. -/
def Word.ofString (text : String) : Word :=
  match text.toList with
  | ['-', '-'] => .escape
  | '-' :: '-' :: rest =>
    match cut '=' rest with
    | (name, value) => .long name (value.map String.ofList)
  | ['-'] => .plain text
  | '-' :: letters => .short letters
  | _ => .plain text

end NetconfClient.CommandLine
