/-
  NetconfClient/Framing/Framer.lean
  =================================
  **The receiving end of a framed byte stream.**

  Octets are appended as they arrive (`extend`) and complete messages are pulled
  off (`next`).  The framing changes at most once, from terminated messages to
  chunks (`upgrade`); octets that have arrived by then are read as chunks.
  Every message consumes octets (`next_buffer_lt`), so pulling ends.
-/
import NetconfClient.Framing.Chunked
import NetconfClient.Framing.Terminated

namespace NetconfClient

open Framing

/-- What a framer knows besides the octets it holds. -/
inductive Decoder where
  /-- Messages end with the terminator; none begins in the first `searched` octets. -/
  | terminated (searched : Nat)
  /-- Messages come in chunks. -/
  | chunked (collected : Chunked.Collected)
  deriving DecidableEq, Repr

/-- Received octets on their way to become messages. -/
structure Framer where
  buffer : List UInt8
  decoder : Decoder
  limit : Nat
  deriving DecidableEq, Repr

namespace Framer

/-- The largest message, in octets, unless told otherwise. -/
def defaultLimit : Nat := 128 * 1024 * 1024

/-- A framer at the beginning of a stream. -/
def start (limit : Nat) : Framer := ⟨[], .terminated 0, limit⟩

/-- The framing in use. -/
def framing (f : Framer) : Framing :=
  match f.decoder with
  | .terminated _ => .endOfMessage
  | .chunked _ => .chunked

/-- Changes to chunks, if they are not in use yet. -/
def upgrade (f : Framer) : Framer :=
  match f.decoder with
  | .terminated _ => { f with decoder := .chunked .nothing }
  | .chunked _ => f

/-- Appends octets. -/
def extend (f : Framer) (octets : List UInt8) : Framer :=
  { f with buffer := f.buffer ++ octets }

/-- Pulls the next message. -/
def next (f : Framer) : Pull × Framer :=
  match f.decoder with
  | .terminated searched =>
    let p := Terminated.pull f.limit searched f.buffer
    (p.result, { f with buffer := p.buffer, decoder := .terminated p.searched })
  | .chunked collected =>
    let p := Chunked.pull f.limit collected f.buffer
    (p.result, { f with buffer := p.buffer, decoder := .chunked p.collected })

/-- A message consumes octets. -/
theorem next_buffer_lt {f g : Framer} {text : String} (h : f.next = (.message text, g)) :
    g.buffer.length < f.buffer.length := by
  unfold next at h
  split at h <;> simp only [Prod.mk.injEq] at h <;> obtain ⟨h, rfl⟩ := h
  · exact Terminated.pull_length_lt h
  · exact Chunked.pull_length_lt h

/-- Pulls messages until one is incomplete or the stream is out of step. -/
def drain (f : Framer) : List String × Option FrameError × Framer :=
  match _h : f.next with
  | (.message text, g) =>
    let (texts, error, last) := drain g
    (text :: texts, error, last)
  | (.incomplete, g) => ([], none, g)
  | (.broken error, g) => ([], some error, g)
termination_by f.buffer.length
decreasing_by exact next_buffer_lt _h

/-- Appends octets and pulls every message they complete.  Messages in front of
    an error are lost with it. -/
def feed (f : Framer) (octets : List UInt8) : Except FrameError (List String) × Framer :=
  match (f.extend octets).drain with
  | (texts, none, g) => (.ok texts, g)
  | (_, some error, g) => (.error error, g)

/-- Feeds pieces one after the other, up to the first error. -/
def feedAll (f : Framer) : List (List UInt8) → List String × Option FrameError × Framer
  | [] => ([], none, f)
  | piece :: pieces =>
    match f.feed piece with
    | (.ok texts, g) =>
      let (more, error, last) := feedAll g pieces
      (texts ++ more, error, last)
    | (.error error, g) => ([], some error, g)

end Framer

end NetconfClient
