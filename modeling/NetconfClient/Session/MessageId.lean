/-
  NetconfClient/Session/MessageId.lean
  ====================================
  **Made-up message identifiers.**

  Identifiers have the form of a version 4 UUID in lower case; the number of the
  identifier stands in its last twelve digits, so different numbers below
  16 ^ 12 give different identifiers.
-/
import NetconfClient.Fault

namespace NetconfClient.Session

/-- The identifier with that number. -/
def messageId (n : Nat) : String :=
  let digits := Nat.toDigits 16 n
  "00000000-0000-4000-8000-" ++
    String.ofList (List.replicate (12 - digits.length) '0' ++ digits)

end NetconfClient.Session
