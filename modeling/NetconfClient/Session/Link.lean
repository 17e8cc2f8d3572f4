/-
  NetconfClient/Session/Link.lean
  ===============================
  **The byte stream between a session and its peer.**

  Octets that have arrived are read in pieces, and faults and the end of the
  stream show only behind them.  Octets are written as far as the window has
  room: it counts what the peer has not taken yet.
-/
import NetconfClient.Fault

namespace NetconfClient.Session

/-- A byte stream in both directions. -/
structure Link where
  /-- What has arrived and has not been read. -/
  arrived : List UInt8
  /-- Whether the peer has ended its side. -/
  ended : Bool
  /-- The text of the fault of reading, writing, flushing and shutting down. -/
  readFault : Option String
  writeFault : Option String
  flushFault : Option String
  shutdownFault : Option String
  /-- How much may be written ahead of the peer; without a bound, everything. -/
  window : Option Nat
  /-- What has been written and not been taken by the peer. -/
  written : List UInt8
  /-- Whether the writing side has been shut down. -/
  shutDown : Bool
  deriving DecidableEq, Repr

namespace Link

/-- A link on which nothing has happened. -/
def fresh : Link := ⟨[], false, none, none, none, none, none, [], false⟩

/-- What a read gives. -/
inductive Read where
  | octets (bs : List UInt8) (link : Link)
  | failed (text : String)
  | ended
  /-- Nothing yet. -/
  | blocked

/-- Reads at most `size` octets. -/
def read (l : Link) (size : Nat) : Read :=
  match l.arrived with
  | _ :: _ => .octets (l.arrived.take size) { l with arrived := l.arrived.drop size }
  | [] =>
    match l.readFault with
    | some text => .failed text
    | none => if l.ended then .ended else .blocked

/-- What a write gives. -/
inductive Write where
  | taken (count : Nat) (link : Link)
  | failed (text : String)
  /-- No room yet. -/
  | blocked

/-- The number of octets that can be written now. -/
def room (l : Link) (wanted : Nat) : Nat :=
  match l.window with
  | none => wanted
  | some window => min wanted (window - l.written.length)

/-- Writes as many octets as there is room for. -/
def write (l : Link) (bs : List UInt8) : Write :=
  match l.writeFault with
  | some text => .failed text
  | none =>
    if l.room bs.length = 0 then .blocked
    else
      .taken (l.room bs.length) { l with written := l.written ++ bs.take (l.room bs.length) }

/-- Shuts the writing side down. -/
def shutdown (l : Link) : Link := { l with shutDown := true }

/-- Octets arrive from the peer. -/
def arrive (l : Link) (bs : List UInt8) : Link := { l with arrived := l.arrived ++ bs }

/-- The peer takes what has been written. -/
def takeWritten (l : Link) : List UInt8 × Link := (l.written, { l with written := [] })

end Link

end NetconfClient.Session
