/-
  NetconfClient/CommandLine/Invocation.lean
  =========================================
  **What a command line asks for.**

  An option that is given behind the subcommand is taken from there alone, else
  from in front of it; a variable of the environment counts only where the
  option is given in neither place.
-/
import NetconfClient.CommandLine.Reading

namespace NetconfClient.CommandLine

/-- The variables that stand in for options. -/
structure Environment where
  host : Option String
  username : Option String
  password : Option String
  deriving DecidableEq, Repr

namespace Environment

/-- Whether none of the variables is set. -/
def isEmpty (e : Environment) : Bool := e.host.isNone && e.username.isNone && e.password.isNone

/-- The variable that stands in for an option. -/
def standIn? (e : Environment) : Key → Option String
  | .host => e.host
  | .username => e.username
  | .password => e.password
  | _ => none

end Environment

/-- What is to be done, with the files it takes. -/
inductive Order where
  | hello
  | rpc (files : List String)
  | notification (stream : String) (filter : Option String)
  deriving DecidableEq, Repr

/-- The word for an order. -/
def Order.name : Order → String
  | hello => Subcommand.hello.name
  | rpc _ => Subcommand.rpc.name
  | notification _ _ => Subcommand.notification.name

/-- The files that an order takes. -/
def Order.files : Order → List String
  | hello => []
  | rpc files => files
  | notification _ filter => filter.toList

/-- A command line that asks for something. -/
structure Invocation where
  order : Order
  /-- How often more output is asked for, at most 255 times. -/
  verbosity : Nat
  quiet : Bool
  addresses : List String
  username : Option String
  password : Option String
  deriving DecidableEq, Repr

namespace Invocation

/-- The values of an option, from the place or the variable that decides it. -/
def chosen (e : Environment) (front behind : Reading) (key : Key) : List String :=
  if behind.has key then behind.values key
  else if front.has key then front.values key
  else
    match e.standIn? key with
    | some text => key.valuesIn text
    | none => []

/-- The stream that is subscribed to unless another is named. -/
def standardStream : String := "NETCONF"

/-- What a subcommand is to do. -/
def orderOf (behind : Reading) : Subcommand → Order
  | .hello => .hello
  | .rpc => .rpc (behind.values .file)
  | .notification =>
    .notification ((behind.values .stream).head?.getD standardStream) (behind.values .filter).head?

/-- Puts together what the two places say. -/
def assemble (e : Environment) (front : Reading) (subcommand : Subcommand) (behind : Reading) :
    Invocation where
  order := orderOf behind subcommand
  verbosity := min 255 (chosen e front behind .verbose).length
  quiet := !(chosen e front behind .quiet).isEmpty
  addresses := chosen e front behind .host
  username := (chosen e front behind .username).head?
  password := (chosen e front behind .password).head?

/-- Reads the words behind a subcommand. -/
def readBehind (subcommand : Subcommand) (words : List String) : Except Stop Reading :=
  match Reading.words (.behind subcommand) .empty words with
  | .error stop => .error stop
  | .ok (.finished r) | .ok (.subcommand r _ _) =>
    match r.settle with
    | .error stop => .error stop
    | .ok behind =>
      if subcommand = .rpc ∧ behind.has .file = false then .error .missingOption
      else .ok behind

/-- Reads a command line; without a subcommand it asks for nothing. -/
def parse (e : Environment) (words : List String) : Except Stop (Option Invocation) :=
  match Reading.words .front .empty words with
  | .error stop => .error stop
  | .ok (.finished r) =>
    match r.settle with
    | .error stop => .error stop
    | .ok front =>
      if front.given.isEmpty && e.isEmpty then .error .nothingGiven else .ok none
  | .ok (.subcommand r subcommand rest) =>
    match readBehind subcommand rest with
    | .error stop => .error stop
    | .ok behind =>
      match r.settle with
      | .error stop => .error stop
      | .ok front => .ok (some (assemble e front subcommand behind))

end Invocation

end NetconfClient.CommandLine
