/-
  NetconfClient/Ssh/Script.lean
  =============================
  **An ssh library that answers as a script says.**

  A call fails if the script has a text for it, by its name and mark or by its
  name alone.  Calls whose names are blocked stay pending; what comes of them is
  decided when they are first made and told once they are not blocked any more.
-/
import NetconfClient.Ssh.Connect
import NetconfClient.Ssh.Transport

namespace NetconfClient.Ssh

/-- What a scripted library answers. -/
structure Script where
  /-- The texts of the errors of calls. -/
  failures : List (String × String)
  /-- The names of the calls that stay pending. -/
  blocked : List String
  /-- Whether the session counts as logged in before any login. -/
  authenticated : Bool
  /-- Whether a login that is accepted is not enough. -/
  incomplete : Bool
  identities : List String
  deriving DecidableEq, Repr

namespace Script

/-- Nothing fails and nothing is blocked. -/
def plain : Script := ⟨[], [], false, false, []⟩

/-- The text of the error of a call. -/
def failure? (s : Script) (call : Call) : Option String :=
  (call.mark?.bind fun mark => s.failures.lookup (call.name ++ " " ++ mark)) <|>
    s.failures.lookup call.name

/-- What comes of a call. -/
def outcome (s : Script) (call : Call) : Except String Unit :=
  match s.failure? call with
  | some text => .error text
  | none => .ok ()

/-- Whether a call stays pending. -/
def blocks (s : Script) (call : Call) : Bool := s.blocked.contains call.name

/-- Whether a call is a login that is accepted. -/
def accepts (s : Script) (call : Call) : Bool := call.isLogin && (s.failure? call).isNone

/-- The library that answers so. -/
def library (s : Script) : Library where
  answer := fun _ call => s.outcome call
  authenticated := fun calls =>
    if calls.any s.accepts then !s.incomplete else s.authenticated
  identities := fun _ => s.identities

/-- Sets the text of an error, or takes it away. -/
def setFailure (s : Script) (key : String) (text : Option String) : Script :=
  { s with
    failures :=
      s.failures.filter (·.1 ≠ key) ++ (text.map fun t => (key, t)).toList }

end Script

/-! ## The channel -/

/-- The call that a step of the farewell is. -/
def Farewell.call : Farewell → Call
  | sendEnd => .sendEnd
  | closeChannel => .closeChannel
  | disconnect => .disconnect

/-- A channel of a scripted library. -/
structure ScriptedChannel where
  script : Script
  /-- What has arrived and has not been read. -/
  arrived : List UInt8
  /-- Whether the peer has ended its side. -/
  ended : Bool
  /-- What will come of the step of the farewell that is under way. -/
  decided : Option (Except String Unit)
  transport : Transport

namespace ScriptedChannel

/-- A channel that has just been opened. -/
def start (script : Script) : ScriptedChannel := ⟨script, [], false, none, .usable⟩

/-- Holds an answer back while the call is blocked. -/
def unlessBlocked (c : ScriptedChannel) (call : Call) (answer : Polled α) : Polled α :=
  if c.script.blocks call then .pending
  else
    match c.script.failure? call with
    | some text => .ready (.error ⟨.other, text⟩)
    | none => answer

/-- What comes of a step of the farewell: the first one may have been decided before. -/
def farewell (c : ScriptedChannel) (first : Option Farewell) (step : Farewell) :
    Poll (Except String Unit) :=
  if c.script.blocks step.call then .pending
  else
    .ready ((if first = some step then c.decided else none).getD (c.script.outcome step.call))

/-- The step of the farewell that has been begun. -/
def begun (c : ScriptedChannel) : Option Farewell :=
  match c.transport with
  | .leaving (step :: _) => some step
  | _ => none

/-- What the channel answers now. -/
def answers (c : ScriptedChannel) : ChannelAnswers where
  read := fun room =>
    c.unlessBlocked .read <|
      if c.arrived.isEmpty then (if c.ended then .ready (.ok []) else .pending)
      else .ready (.ok (c.arrived.take room))
  write := fun octets => c.unlessBlocked (.write octets) (.ready (.ok octets.length))
  flush := c.unlessBlocked .flush (.ready (.ok ()))
  farewell := c.farewell c.begun

/-- The call that an ask leads to: a blocked one of the channel is not made, and to wait for
    a step is no call. -/
def callOf (c : ScriptedChannel) (ask : Ask) : Option Call :=
  match ask with
  | .read _ => if c.script.blocks .read then none else some .read
  | .write octets => if c.script.blocks (.write octets) then none else some (.write octets)
  | .flush => if c.script.blocks .flush then none else some .flush
  | .farewell step => some step.call
  | .resume _ => none

/-- The channel behind a poll: a step that has just been begun is decided. -/
def settle (c : ScriptedChannel) (t : Transport) : ScriptedChannel :=
  { c with
    transport := t
    decided :=
      match t with
      | .leaving (step :: _) =>
        if c.begun = some step then c.decided else some (c.script.outcome step.call)
      | _ => none }

/-- Polls a read. -/
def read (c : ScriptedChannel) (room : Nat) : Polled (List UInt8) × List Call × ScriptedChannel :=
  match c.transport.read c.answers room with
  | (result, asks) =>
    (result, asks.filterMap c.callOf,
      match c.transport, result with
      | .usable, .ready (.ok octets) => { c with arrived := c.arrived.drop octets.length }
      | _, _ => c)

/-- Polls a write. -/
def write (c : ScriptedChannel) (octets : List UInt8) : Polled Nat × List Call × ScriptedChannel :=
  match c.transport.write c.answers octets with
  | (result, asks) => (result, asks.filterMap c.callOf, c)

/-- Polls a flush. -/
def flush (c : ScriptedChannel) : Polled Unit × List Call × ScriptedChannel :=
  match c.transport.flush c.answers with
  | (result, asks) => (result, asks.filterMap c.callOf, c)

/-- Polls a shutdown. -/
def shutdown (c : ScriptedChannel) : Polled Unit × List Call × ScriptedChannel :=
  match c.transport.shutdown c.answers with
  | (result, t, asks) => (result, asks.filterMap c.callOf, c.settle t)

end ScriptedChannel

end NetconfClient.Ssh
