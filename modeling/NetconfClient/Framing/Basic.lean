/-
  NetconfClient/Framing/Basic.lean
  ================================
  **The two framings of messages on the wire.**

  Up to and including the greetings, and in sessions of base version 1.0, a
  message ends with `]]>]]>`.  In sessions of base version 1.1 it is cut into
  chunks, each behind its length, and `LF # # LF` follows the last one.
-/
import NetconfClient.Fault
import NetconfClient.Text.Unsigned
import NetconfClient.Text.Utf8

namespace NetconfClient

open Text

/-- How messages are told apart on the wire. -/
inductive Framing where
  | endOfMessage
  | chunked
  deriving DecidableEq, Repr

namespace Framing

/-- The line feed. -/
def lf : UInt8 := 10

/-- The number sign. -/
def hash : UInt8 := 35

/-- The octets `]]>]]>` behind a message. -/
def terminator : List UInt8 := [93, 93, 62, 93, 93, 62]

/-- The octets behind the last chunk of a message. -/
def endOfChunks : List UInt8 := [lf, hash, hash, lf]

/-- The octets in front of a chunk of `size` octets. -/
def chunkHeader (size : Nat) : List UInt8 :=
  lf :: hash :: (Utf8.encode (Nat.toDigits 10 size) ++ [lf])

/-- A message on the wire. -/
def encode (framing : Framing) (message : String) : List UInt8 :=
  let body := Utf8.encodeString message
  match framing with
  | endOfMessage => body ++ terminator
  | chunked => chunkHeader body.length ++ body ++ endOfChunks

end Framing

/-- Why a byte stream is out of step. -/
inductive FrameError where
  /-- Another octet stands where `expected` has to be. -/
  | misplaced (expected actual : UInt8)
  /-- A message grows past the limit. -/
  | tooLarge (limit : Nat)
  /-- A chunk size has more than ten digits. -/
  | longSize
  /-- A chunk header without a size. -/
  | emptySize
  /-- A chunk size that begins with a superfluous zero. -/
  | leadingZero (digits : List Char)
  /-- A chunk size that is no number of 32 bits. -/
  | badSize (cause : UnsignedError)
  /-- A message without a chunk. -/
  | noChunk
  deriving DecidableEq, Repr

/-- The fault of a session whose stream is out of step. -/
def FrameError.fault : FrameError → Fault
  | misplaced expected actual =>
    .malformedChunk (Char.ofNat expected.toNat) (Char.ofNat actual.toNat)
  | tooLarge limit => .framing ("message larger than " ++ toString limit ++ " bytes")
  | longSize => .framing "chunk size longer than 10 digits"
  | emptySize => .framing "empty chunk size"
  | leadingZero digits =>
    .framing ("chunk size with leading zero: " ++ String.ofList digits)
  | badSize cause => .framing ("chunk size: " ++ cause.message)
  | noChunk => .framing "end-of-chunks marker without preceding chunk"

/-- What pulling a message off the received octets gives. -/
inductive Pull where
  | message (text : String)
  /-- The octets so far may still become a message. -/
  | incomplete
  /-- No octets that follow can make the stream readable again. -/
  | broken (error : FrameError)
  deriving DecidableEq, Repr

end NetconfClient
