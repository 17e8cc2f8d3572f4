/-
  NetconfClient/Framing/Chunked.lean
  ==================================
  **Messages in chunks.**

  A chunk is consumed once all of its octets have arrived; the payloads are
  collected until the end marker.  A header is refused at the first octet that
  no chunk header can have there, and a size as soon as it would take the
  message past the limit.
-/
import NetconfClient.Framing.Basic

namespace NetconfClient.Framing.Chunked

open Text

/-! ## 1. Chunk headers and end markers -/

/-- The ASCII digits. -/
def isDigit (b : UInt8) : Bool := 48 ≤ b && b ≤ 57

/-- The digit that stands for "a digit" in faults. -/
def zero : UInt8 := 48

/-- The largest number of digits in a chunk size. -/
def maxDigits : Nat := 10

/-- What stands at the beginning of the octets. -/
inductive Delimiter where
  /-- The beginning of a header or an end marker. -/
  | unfinished
  /-- The header of a chunk, and the octets behind it. -/
  | chunk (size : Nat) (rest : List UInt8)
  /-- The end marker, and the octets behind it. -/
  | endOfChunks (rest : List UInt8)
  /-- Neither, whatever follows. -/
  | invalid (error : FrameError)
  deriving DecidableEq, Repr

/-- The value of a complete chunk size. -/
def size? (digits : List UInt8) : Except FrameError Nat :=
  if digits = [] then .error .emptySize
  else if digits.length > maxDigits then .error .longSize
  else if digits.length > 1 ∧ digits.head? = some zero then
    .error (.leadingZero (Utf8.decode digits))
  else
    match Unsigned.parse Unsigned.max32 (Utf8.decode digits) with
    | .ok size => .ok size
    | .error cause => .error (.badSize cause)

/-- Reads the line feed behind the digits of a chunk size. -/
def readSizeEnd (digits : List UInt8) : List UInt8 → Delimiter
  | [] => if digits.length > maxDigits then .invalid .longSize else .unfinished
  | b :: rest =>
    if b ≠ lf then .invalid (.misplaced zero b)
    else
      match size? digits with
      | .ok size => .chunk size rest
      | .error error => .invalid error

/-- Reads a chunk size and the line feed behind it. -/
def readSize (octets : List UInt8) : Delimiter :=
  readSizeEnd (octets.takeWhile isDigit) (octets.dropWhile isDigit)

/-- Reads what follows `LF #`. -/
def readKind : List UInt8 → Delimiter
  | [] => .unfinished
  | b :: rest =>
    if b = hash then
      match rest with
      | [] => .unfinished
      | c :: rest => if c = lf then .endOfChunks rest else .invalid (.misplaced lf c)
    else readSize (b :: rest)

/-- Reads a chunk header or an end marker. -/
def readDelimiter : List UInt8 → Delimiter
  | [] => .unfinished
  | b :: rest =>
    if b ≠ lf then .invalid (.misplaced lf b)
    else
      match rest with
      | [] => .unfinished
      | c :: rest => if c ≠ hash then .invalid (.misplaced hash c) else readKind rest

theorem readSizeEnd_chunk_length {digits octets rest : List UInt8} {size : Nat}
    (h : readSizeEnd digits octets = .chunk size rest) : rest.length < octets.length := by
  unfold readSizeEnd at h
  split at h
  · split at h <;> cases h
  · split at h
    · cases h
    · split at h
      · cases h
        simp
      · cases h

theorem readSize_chunk_length {octets rest : List UInt8} {size : Nat}
    (h : readSize octets = .chunk size rest) : rest.length < octets.length :=
  Nat.lt_of_lt_of_le (readSizeEnd_chunk_length h) (List.dropWhile_sublist isDigit).length_le

theorem readSize_ne_endOfChunks (octets rest : List UInt8) :
    readSize octets ≠ .endOfChunks rest := by
  intro h
  unfold readSize readSizeEnd at h
  split at h
  · split at h <;> cases h
  · split at h
    · cases h
    · split at h <;> cases h

/-- A chunk header consumes octets. -/
theorem readDelimiter_chunk_length {octets rest : List UInt8} {size : Nat}
    (h : readDelimiter octets = .chunk size rest) : rest.length < octets.length := by
  unfold readDelimiter at h
  split at h
  · cases h
  · split at h
    · cases h
    · split at h
      · cases h
      · split at h
        · cases h
        · unfold readKind at h
          split at h
          · cases h
          · split at h
            · split at h
              · cases h
              · split at h <;> cases h
            · have := readSize_chunk_length h
              simp only [List.length_cons] at this ⊢
              omega

/-- An end marker consumes octets. -/
theorem readDelimiter_end_length {octets rest : List UInt8}
    (h : readDelimiter octets = .endOfChunks rest) : rest.length < octets.length := by
  unfold readDelimiter at h
  split at h
  · cases h
  · split at h
    · cases h
    · split at h
      · cases h
      · split at h
        · cases h
        · unfold readKind at h
          split at h
          · cases h
          · split at h
            · split at h
              · cases h
              · split at h
                · cases h
                  simp only [List.length_cons]
                  omega
                · cases h
            · exact absurd h (readSize_ne_endOfChunks _ _)

/-! ## 2. Collecting a message -/

/-- The chunks of the message that is being received. -/
structure Collected where
  payload : List UInt8
  chunks : Nat
  deriving DecidableEq, Repr

/-- No chunk yet. -/
def Collected.nothing : Collected := ⟨[], 0⟩

/-- A further chunk. -/
def Collected.add (collected : Collected) (chunk : List UInt8) : Collected :=
  ⟨collected.payload ++ chunk, collected.chunks + 1⟩

/-- What a pull leaves behind: its result, the octets not consumed, and the
    chunks of the message that is not complete. -/
structure Pulled where
  result : Pull
  buffer : List UInt8
  collected : Collected
  deriving DecidableEq, Repr

/-- Pulls a message of at most `limit` octets. -/
def pull (limit : Nat) (collected : Collected) (buffer : List UInt8) : Pulled :=
  match _h : readDelimiter buffer with
  | .unfinished => ⟨.incomplete, buffer, collected⟩
  | .invalid error => ⟨.broken error, buffer, collected⟩
  | .chunk size rest =>
    if collected.payload.length + size > limit then
      ⟨.broken (.tooLarge limit), buffer, collected⟩
    else if rest.length < size then ⟨.incomplete, buffer, collected⟩
    else pull limit (collected.add (rest.take size)) (rest.drop size)
  | .endOfChunks rest =>
    if collected.chunks = 0 then ⟨.broken .noChunk, buffer, collected⟩
    else ⟨.message (Utf8.decodeString collected.payload), rest, .nothing⟩
termination_by buffer.length
decreasing_by
  have := readDelimiter_chunk_length _h
  simp only [List.length_drop]
  omega

/-- No pull adds octets. -/
theorem pull_length_le (limit : Nat) (collected : Collected) (buffer : List UInt8) :
    (pull limit collected buffer).buffer.length ≤ buffer.length := by
  fun_induction pull limit collected buffer with
  | case1 | case2 | case3 | case4 | case6 => exact Nat.le_refl _
  | case5 _ buffer _ _ h _ _ ih =>
    have := readDelimiter_chunk_length h
    simp only [List.length_drop] at ih
    omega
  | case7 _ buffer _ h => exact Nat.le_of_lt (readDelimiter_end_length h)

/-- A message consumes octets. -/
theorem pull_length_lt {limit : Nat} {collected : Collected} {buffer : List UInt8} {text : String}
    (h : (pull limit collected buffer).result = .message text) :
    (pull limit collected buffer).buffer.length < buffer.length := by
  fun_induction pull limit collected buffer with
  | case1 | case2 | case3 | case4 | case6 => simp at h
  | case5 _ buffer _ _ hd _ _ ih =>
    have hlt := readDelimiter_chunk_length hd
    have := ih h
    simp only [List.length_drop] at this
    omega
  | case7 _ buffer _ hd => exact readDelimiter_end_length hd

end NetconfClient.Framing.Chunked
