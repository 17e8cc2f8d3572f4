/-
  NetconfClient/Capability/Basic.lean
  ===================================
  **A capability: a URI and parameters.**

  A capability is read from a full URI or from a short form, which begins with a
  colon: `:candidate` stands for version 1.0 of that capability,
  `:candidate:1.1` for the version given, `:base` and `:base:1.1` for the base
  protocol.  What follows the first `?` are parameters.  `abbreviations` goes the
  other way, from a URI to the short forms that name it.
-/
import NetconfClient.Fault
import NetconfClient.Text.Blank
import NetconfClient.Text.Cut
import NetconfClient.Text.Dictionary

namespace NetconfClient

open Text

/-- A capability that a peer announces. -/
structure Capability where
  uri : String
  params : Dictionary
  deriving DecidableEq, Repr

namespace Capability

/-! ## 1. URIs and their short forms -/

/-- What the URIs of all capabilities but the base protocol begin with. -/
def capabilityUrn : String := "urn:ietf:params:netconf:capability:"

/-- What the URIs of the base protocol begin with. -/
def baseUrn : String := "urn:ietf:params:netconf:base:"

/-- The URI that a short form stands for. -/
def expand (short : List Char) : String :=
  let name := short.dropWhile (· == ':')
  match cut ':' name with
  | (front, some version) =>
    if front = "base".toList then baseUrn ++ String.ofList version
    else capabilityUrn ++ String.ofList name
  | (_, none) =>
    if name = "base".toList then baseUrn ++ "1.0"
    else capabilityUrn ++ String.ofList name ++ ":1.0"

/-- The short forms that name a URI. -/
def abbreviationsOf (uri : String) : List String :=
  match capabilityUrn.toList.isPrefixOf? uri.toList with
  | some rest =>
    let name := (cut ':' rest).1
    if name = rest then [":" ++ String.ofList name]
    else [":" ++ String.ofList name, ":" ++ String.ofList rest]
  | none =>
    match baseUrn.toList.isPrefixOf? uri.toList with
    | some version => [":base", ":base:" ++ String.ofList version]
    | none => []

/-- The short forms that a capability answers to. -/
def abbreviations (c : Capability) : List String := abbreviationsOf c.uri

/-- Whether a capability is meant by a URI or a short form. -/
def answersTo (c : Capability) (key : String) : Bool :=
  c.uri == key || c.abbreviations.contains key

/-! ## 2. Reading -/

/-- The key and the value of a parameter; without `=` the value is empty. -/
def pairOf (piece : List Char) : String × String :=
  match cut '=' piece with
  | (key, value) => (String.ofList key, String.ofList (value.getD []))

/-- The parameters behind the `?`. -/
def paramsOf (query : List Char) : Dictionary :=
  Dictionary.ofPairs (((query.splitOn '&').filter (· ≠ [])).map pairOf)

/-- The capability that a text without blanks at its ends stands for. -/
def ofTrimmed (cs : List Char) : Except Fault Capability :=
  if cs = [] ∨ cs = [':'] then .error (.capabilityExchange "empty capability")
  else
    match cut '?' cs with
    | (uri, query) =>
      .ok {
        uri := if uri.head? = some ':' then expand uri else String.ofList uri
        params := paramsOf (query.getD []) }

/-- Reads a capability. -/
def parse (s : String) : Except Fault Capability := ofTrimmed (trim s.toList)

/-! ## 3. Writing -/

/-- A parameter; an empty value is left out together with its `=`. -/
def renderPair (pair : String × String) : String :=
  if pair.2 = "" then pair.1 else pair.1 ++ "=" ++ pair.2

/-- Parameters behind the separator that the first of them takes. -/
def renderParams (separator : String) : List (String × String) → String
  | [] => ""
  | pair :: rest => separator ++ renderPair pair ++ renderParams "&" rest

/-- The text of a capability. -/
def render (c : Capability) : String := c.uri ++ renderParams "?" c.params.entries

end Capability

end NetconfClient
