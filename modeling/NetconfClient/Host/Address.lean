/-
  NetconfClient/Host/Address.lean
  ===============================
  **Host addresses: a name and perhaps a port.**

  A name in square brackets is followed by nothing or by `:` and a port.  Without
  brackets, exactly one colon stands between a name and a port; with none or with
  several, as in the address `fe80::1`, all of it is the name.
-/
import NetconfClient.Fault
import NetconfClient.Text.Cut
import NetconfClient.Text.Unsigned

namespace NetconfClient

open Text

/-- A host name and the port that stands behind it. -/
structure Address where
  name : String
  port : Option Nat
  deriving DecidableEq, Repr

/-- Why a text is no address. -/
inductive AddressError where
  /-- A bracket is opened and not closed. -/
  | unclosedBracket
  /-- Behind the closed bracket stands something other than a port. -/
  | textBehindBracket
  | emptyName
  | badPort (cause : UnsignedError)
  deriving DecidableEq, Repr

/-- The wording of each cause. -/
def AddressError.message : AddressError → String
  | unclosedBracket => "missing ']'"
  | textBehindBracket => "unexpected text after ']'"
  | emptyName => "empty host name"
  | badPort cause => cause.message

namespace Address

/-! ## 1. The two parts -/

/-- The name and the text of the port, before either is looked at. -/
def divide (cs : List Char) : Except AddressError (List Char × Option (List Char)) :=
  match cs with
  | '[' :: rest =>
    match cut ']' rest with
    | (_, none) => .error .unclosedBracket
    | (name, some []) => .ok (name, none)
    | (name, some (':' :: port)) => .ok (name, some port)
    | (_, some _) => .error .textBehindBracket
  | _ => if cs.count ':' = 1 then .ok (cut ':' cs) else .ok (cs, none)

/-- Reads the port, if there is one. -/
def readPort : Option (List Char) → Except AddressError (Option Nat)
  | none => .ok none
  | some cs =>
    match Unsigned.parse Unsigned.max16 cs with
    | .ok port => .ok (some port)
    | .error cause => .error (.badPort cause)

/-- Reads an address.  An empty name is found before a bad port. -/
def read (cs : List Char) : Except AddressError Address :=
  match divide cs with
  | .error cause => .error cause
  | .ok ([], _) => .error .emptyName
  | .ok (name, port) =>
    match readPort port with
    | .ok port => .ok ⟨String.ofList name, port⟩
    | .error cause => .error cause

/-! ## 2. Addresses as they are given -/

/-- The fault of a text that is no address. -/
def fault (text : String) (cause : AddressError) : Fault :=
  .other ("Invalid host '" ++ text ++ "': " ++ cause.message)

/-- Reads an address as it is given on the command line. -/
def parse (text : String) : Except Fault Address :=
  match read text.toList with
  | .ok address => .ok address
  | .error cause => .error (fault text cause)

example : read "[::1]:5".toList = .ok ⟨"::1", some 5⟩ := rfl
example : read "fe80::1".toList = .ok ⟨"fe80::1", none⟩ := rfl
example : read "[]:x".toList = .error .emptyName := rfl

end Address

end NetconfClient
