/-
  NetconfClient/Ssh/Transport.lean
  ================================
  **The channel as a byte stream that can be shut down.**

  Shutting down flushes the channel first; until that has succeeded the channel
  stays usable.  Then the channel is given up: the end of the stream is sent, the
  channel closed and the session disconnected, each only once and only behind
  the one before.  From then on reading gives the end of the stream, writing
  fails and there is nothing to flush; when the farewell is over, well or not,
  there is nothing left to shut down.
-/
import NetconfClient.Fault

namespace NetconfClient.Ssh

/-- What kind of failure of a byte stream it is. -/
inductive IoKind where
  | notConnected
  | other
  /-- Any further kind, by its name. -/
  | named (name : String)
  deriving DecidableEq, Repr

/-- A failure of a byte stream. -/
structure IoError where
  kind : IoKind
  text : String
  deriving DecidableEq, Repr

/-- What is told of a failure is its text. -/
instance : Coe IoError String := ⟨IoError.text⟩

/-- What a poll gives. -/
inductive Poll (ρ : Type) where
  | pending
  | ready (result : ρ)
  deriving DecidableEq, Repr

/-- What a poll of a byte stream gives. -/
abbrev Polled (α : Type) : Type := Poll (Except IoError α)

/-- A step of the farewell. -/
inductive Farewell where
  | sendEnd
  | closeChannel
  | disconnect
  deriving DecidableEq, Repr

/-- The whole farewell. -/
def Farewell.steps : List Farewell := [.sendEnd, .closeChannel, .disconnect]

/-- What the channel and the session answer at one moment. -/
structure ChannelAnswers where
  read : Nat → Polled (List UInt8)
  write : List UInt8 → Polled Nat
  flush : Polled Unit
  /-- What comes of a step, or the text of its error. -/
  farewell : Farewell → Poll (Except String Unit)

/-- What has been asked of the channel and the session. -/
inductive Ask where
  | read (room : Nat)
  | write (octets : List UInt8)
  | flush
  /-- A step of the farewell is called for. -/
  | farewell (step : Farewell)
  /-- A step that was called for before is waited for. -/
  | resume (step : Farewell)
  deriving DecidableEq, Repr

/-- Where a transport is in its life. -/
inductive Transport where
  | usable
  /-- The farewell is under way; these steps are not over, and the first has been called for. -/
  | leaving (steps : List Farewell)
  | gone
  deriving DecidableEq, Repr

namespace Transport

/-- The failure of writing to a channel that has been given up. -/
def channelClosed : IoError := ⟨.notConnected, "netconf channel is closed"⟩

/-- Reads at most `room` octets. -/
def read (t : Transport) (a : ChannelAnswers) (room : Nat) : Polled (List UInt8) × List Ask :=
  match t with
  | usable => (a.read room, [.read room])
  | _ => (.ready (.ok []), [])

/-- Writes octets; gives how many were taken. -/
def write (t : Transport) (a : ChannelAnswers) (octets : List UInt8) : Polled Nat × List Ask :=
  match t with
  | usable => (a.write octets, [.write octets])
  | _ => (.ready (.error channelClosed), [])

/-- Flushes what has been written. -/
def flush (t : Transport) (a : ChannelAnswers) : Polled Unit × List Ask :=
  match t with
  | usable => (a.flush, [.flush])
  | _ => (.ready (.ok ()), [])

/-- Takes steps of the farewell; `ask` is how the first of them is asked for. -/
def leave (a : ChannelAnswers) (ask : Farewell → Ask) :
    List Farewell → Polled Unit × Transport × List Ask
  | [] => (.ready (.ok ()), gone, [])
  | step :: steps =>
    match a.farewell step with
    | .pending => (.pending, leaving (step :: steps), [ask step])
    | .ready (.error text) => (.ready (.error ⟨.other, text⟩), gone, [ask step])
    | .ready (.ok ()) =>
      match leave a .farewell steps with
      | (result, t, asks) => (result, t, ask step :: asks)

/-- Shuts the transport down. -/
def shutdown (t : Transport) (a : ChannelAnswers) : Polled Unit × Transport × List Ask :=
  match t with
  | usable =>
    match a.flush with
    | .pending => (.pending, usable, [.flush])
    | .ready (.error error) => (.ready (.error error), usable, [.flush])
    | .ready (.ok ()) =>
      match leave a .farewell Farewell.steps with
      | (result, t, asks) => (result, t, .flush :: asks)
  | leaving steps => leave a .resume steps
  | gone => (.ready (.ok ()), gone, [])

end Transport

end NetconfClient.Ssh
