/-
  NetconfClient/Framing/Terminated.lean
  =====================================
  **Messages that end with `]]>]]>`.**

  A search for the terminator that found none is taken up again where it
  stopped: only the last five octets can still begin a terminator that is not
  complete yet.  `pull` is given that offset; with offset 0 it searches from the
  first octet.
-/
import NetconfClient.Framing.Basic
import NetconfClient.Text.Blank

namespace NetconfClient.Framing.Terminated

open Text

/-- Where the first terminator begins. -/
def find? : List UInt8 → Option Nat
  | [] => none
  | b :: bs => if terminator.isPrefixOf (b :: bs) then some 0 else (find? bs).map (· + 1)

/-- The number of octets at the end that may belong to an incomplete terminator. -/
def overlap : Nat := terminator.length - 1

/-- The text of a message body. -/
def body (octets : List UInt8) : String :=
  String.ofList (trim (Utf8.decode octets))

/-- What a pull leaves behind: its result, the octets not consumed, and the
    number of leading octets at which no terminator begins. -/
structure Pulled where
  result : Pull
  buffer : List UInt8
  searched : Nat
  deriving DecidableEq, Repr

/-- Takes the message in front of the terminator at octet `stop`. -/
def found (limit searched stop : Nat) (buffer : List UInt8) : Pulled :=
  if stop > limit then ⟨.broken (.tooLarge limit), buffer, searched⟩
  else ⟨.message (body (buffer.take stop)), buffer.drop (stop + terminator.length), 0⟩

/-- Waits for a terminator that begins at octet `searched` or later. -/
def missed (limit searched : Nat) (buffer : List UInt8) : Pulled :=
  if searched > limit then ⟨.broken (.tooLarge limit), buffer, searched⟩
  else ⟨.incomplete, buffer, searched⟩

/-- Pulls a message of at most `limit` octets, searching from octet `searched`. -/
def pull (limit searched : Nat) (buffer : List UInt8) : Pulled :=
  match find? (buffer.drop searched) with
  | some pos => found limit searched (searched + pos) buffer
  | none => missed limit (buffer.length - overlap) buffer

/-- A terminator that is found lies within the octets. -/
theorem lt_length_of_find? {bs : List UInt8} {pos : Nat} (h : find? bs = some pos) :
    pos < bs.length := by
  induction bs generalizing pos with
  | nil => simp [find?] at h
  | cons b bs ih =>
    simp only [find?] at h
    split at h
    · cases h; simp
    · obtain ⟨p, hp, rfl⟩ := Option.map_eq_some_iff.1 h
      have := ih hp
      simp only [List.length_cons]
      omega

/-- A message consumes octets. -/
theorem pull_length_lt {limit searched : Nat} {buffer : List UInt8} {text : String}
    (h : (pull limit searched buffer).result = .message text) :
    (pull limit searched buffer).buffer.length < buffer.length := by
  unfold pull at h ⊢
  cases hpos : find? (buffer.drop searched) with
  | some pos =>
    have hlt := lt_length_of_find? hpos
    simp only [List.length_drop] at hlt
    simp only [hpos, found] at h ⊢
    split at h
    · simp at h
    · next hle =>
      simp only [hle, if_false, List.length_drop, terminator, List.length_cons, List.length_nil]
      omega
  | none =>
    simp only [hpos, missed] at h
    split at h <;> simp at h

end NetconfClient.Framing.Terminated
