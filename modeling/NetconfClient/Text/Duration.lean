/-
  NetconfClient/Text/Duration.lean
  ================================
  **Spans of time and their text.**

  A span is a number of nanoseconds.  It is written in the largest of the units
  `s`, `ms`, `µs`, `ns` in which it is at least one, with the exact fraction and
  no trailing zeros; no time at all is `0ns`.
-/
import NetconfClient.Text.Blank

namespace NetconfClient.Text

/-- A span of time. -/
structure Duration where
  nanos : Nat
  deriving DecidableEq, Repr, Inhabited

namespace Duration

def ofSeconds (n : Nat) : Duration := ⟨n * 1000000000⟩
def ofMillis (n : Nat) : Duration := ⟨n * 1000000⟩

/-- Digits of `n` padded with zeros on the left to `width`. -/
def padded (width n : Nat) : List Char :=
  let ds := Nat.toDigits 10 n
  List.replicate (width - ds.length) '0' ++ ds

/-- A count of the smaller unit, written in a unit of `10 ^ places` of them. -/
def inUnit (places n : Nat) (name : String) : String :=
  let scale := Nat.pow 10 places
  let fraction := dropEndWhile (· == '0') (padded places (n % scale))
  let point := if n % scale = 0 then [] else '.' :: fraction
  String.ofList (Nat.toDigits 10 (n / scale) ++ point) ++ name

/-- The text of a span. -/
def render (d : Duration) : String :=
  if 1000000000 ≤ d.nanos then inUnit 9 d.nanos "s"
  else if 1000000 ≤ d.nanos then inUnit 6 d.nanos "ms"
  else if 1000 ≤ d.nanos then inUnit 3 d.nanos "µs"
  else inUnit 0 d.nanos "ns"

example : (ofMillis 1500).render = "1.5s" := by decide +kernel
example : (Duration.mk 1000000001).render = "1.000000001s" := by decide +kernel
example : (Duration.mk 999999).render = "999.999µs" := by decide +kernel
example : (Duration.mk 0).render = "0ns" := by decide +kernel

end Duration

end NetconfClient.Text
