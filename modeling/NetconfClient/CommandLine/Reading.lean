/-
  NetconfClient/CommandLine/Reading.lean
  ======================================
  **Reading the words of one place.**

  An option that takes a value without `=` waits for the next word; what it
  waits for is settled when the next option comes or the place ends.  A word that
  looks like an option is never taken for a value.
-/
import NetconfClient.CommandLine.Options
import NetconfClient.CommandLine.Word

namespace NetconfClient.CommandLine

/-- The options given so far in one place. -/
structure Reading where
  /-- The options and their values, in order; the value of a flag is empty. -/
  given : List (Key × String)
  /-- The last option, if it is not settled, and the value it was given. -/
  open? : Option (Key × Option String)
  deriving DecidableEq, Repr

namespace Reading

/-- Nothing given. -/
def empty : Reading := ⟨[], none⟩

/-- Whether an option has been given. -/
def has (r : Reading) (key : Key) : Bool := r.given.any (·.1 = key)

/-- The values of an option. -/
def values (r : Reading) (key : Key) : List String :=
  (r.given.filter (·.1 = key)).map (·.2)

/-- Whether the next word is a value. -/
def awaitsValue (r : Reading) : Bool :=
  match r.open? with
  | some (_, none) => true
  | _ => false

/-- Notes an option with its value. -/
def note (r : Reading) (key : Key) (text : String) : Except Stop Reading :=
  match key.usage with
  | .count => .ok { r with given := r.given ++ [(key, text)] }
  | .flag | .value =>
    if r.has key then .error .repeatedOption
    else .ok { r with given := r.given ++ [(key, text)] }
  | .values => .ok { r with given := r.given ++ (key.valuesIn text).map fun v => (key, v) }
  | .ends stop => .error stop

/-- Settles the last option. -/
def settle (r : Reading) : Except Stop Reading :=
  match r.open? with
  | none => .ok r
  | some (_, none) => .error .missingValue
  | some (key, some text) => { r with open? := none }.note key text

/-- An option with everything that belongs to it. -/
def complete (r : Reading) (key : Key) (text : String) : Except Stop Reading :=
  match r.settle with
  | .ok settled => settled.note key text
  | .error stop => .error stop

/-- An option whose value is the next word. -/
def await (r : Reading) (key : Key) : Except Stop Reading :=
  match r.settle with
  | .ok settled => .ok { settled with open? := some (key, none) }
  | .error stop => .error stop

/-- A long option. -/
def long (r : Reading) (place : Place) (name : List Char) (value : Option String) :
    Except Stop Reading :=
  match place.byLong? name with
  | none => .error .unknownArgument
  | some key =>
    match key.takesValue, value with
    | true, some text => r.complete key text
    | true, none => r.await key
    | false, some _ => .error .surplusValue
    | false, none => r.complete key ""

/-- Short options in a row; the first that takes a value takes the rest of the word. -/
def short (place : Place) : Reading → List Char → Except Stop Reading
  | r, [] => .ok r
  | r, letter :: letters =>
    match place.byShort? letter with
    | none => .error .unknownArgument
    | some key =>
      if key.takesValue then
        match letters with
        | [] => r.await key
        | '=' :: text => r.complete key (String.ofList text)
        | text => r.complete key (String.ofList text)
      else
        match r.complete key "" with
        | .ok next => short place next letters
        | .error stop => .error stop

/-- A plain word: the value that is waited for. -/
def plain (r : Reading) (place : Place) (text : String) : Except Stop Reading :=
  match r.open? with
  | some (key, none) => .ok { r with open? := some (key, some text) }
  | _ => .error place.surplusWord

/-- A word that is no subcommand and not `--`. -/
def word (r : Reading) (place : Place) : Word → Except Stop Reading
  | .long name value => r.long place name value
  | .short letters => short place r letters
  | .plain text => r.plain place text
  | .escape => .ok r

/-- What a place comes to. -/
inductive Ending where
  /-- There are no more words. -/
  | finished (reading : Reading)
  /-- A subcommand, and the words behind it. -/
  | subcommand (reading : Reading) (subcommand : Subcommand) (rest : List String)

/-- Reads the words of a place. -/
def words (place : Place) : Reading → List String → Except Stop Ending
  | r, [] => .ok (.finished r)
  | r, text :: rest =>
    if place = .front ∧ r.awaitsValue = false ∧ text = "help" then .error (helpOn rest)
    else
      match if place = .front ∧ r.awaitsValue = false then Subcommand.ofName? text else none with
      | some subcommand => .ok (.subcommand r subcommand rest)
      | none =>
        match Word.ofString text with
        | .escape =>
          match rest with
          | [] => .ok (.finished r)
          | surplus :: _ => .error (place.surplusBehindEscape surplus)
        | form =>
          match r.word place form with
          | .ok next => words place next rest
          | .error stop => .error stop

end Reading

end NetconfClient.CommandLine
