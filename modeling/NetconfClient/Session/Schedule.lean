/-
  NetconfClient/Session/Schedule.lean
  ===================================
  **Running a session until it can do no more.**

  The writer begins.  A task goes on until it has to wait; then the first that can
  go on takes over: the calls in the order of their beginning, then the writer,
  then the receiver.  Calls whose time has come can be let go on before all that,
  the earliest deadline first.  These are orders that `System.step` allows.
-/
import NetconfClient.Session.System

namespace NetconfClient.Session.System

open Text

/-- The tasks, in the order in which they take over. -/
def tasks (s : System) : List Task := s.calls.map (fun c => .call c.1) ++ [.writer, .receiver]

/-- Takes at most that many steps, the first ones of the task at hand. -/
def run : Nat → Task → System → System
  | 0, _, s => s
  | fuel + 1, task, s =>
    match s.step task with
    | some t => run fuel task t
    | none =>
      match s.tasks.findSome? fun other => (s.step other).map fun t => (other, t) with
      | some (other, t) => run fuel other t
      | none => s

/-- Takes at most that many steps, all of one task. -/
def runTask : Nat → Task → System → System
  | 0, _, s => s
  | fuel + 1, task, s =>
    match s.step task with
    | some t => runTask fuel task t
    | none => s

/-- The number of octets that an item of the queue may lead to writing. -/
def Outgoing.weight : Outgoing → Nat
  | .message octets => octets.length
  | .shutdown => 0

/-- The number of octets of the message that a call has yet to queue. -/
def Stage.weight : Stage → Nat
  | .ifOpen _ m | .register _ _ m | .ifStillOpen _ _ m | .enqueue _ _ m => Utf8.size m.toList
  | _ => 0

/-- The number of octets that the writer has at hand. -/
def Writer.weight : Writer → Nat
  | .writing rest => rest.length
  | _ => 0

/-- The weights of all items of a list together. -/
def total (weight : α → Nat) : List α → Nat
  | [] => 0
  | a :: rest => weight a + total weight rest

/-- More steps than are left until nothing can go on: every octet is read, pulled and
    written at most once, and every call has a bounded number of stages. -/
def effort (s : System) : Nat :=
  let octets :=
    s.link.arrived.length + s.intake.framer.buffer.length + Writer.weight s.writer +
    total Outgoing.weight s.queue.items + total (fun c => Stage.weight c.2) s.calls +
    Utf8.size s.hello.toList
  4 * octets + 64 * (s.calls.length + s.queue.items.length + 4)

/-- Takes steps until no task can take one. -/
def settle (s : System) : System := run s.effort .writer s

/-- Takes steps of a call until it has to wait. -/
def resume (s : System) (number : Nat) : System := runTask s.effort (.call number) s

/-- The calls whose time has come, with that time, the earliest first. -/
def dueCalls (s : System) : List (Nat × Duration) :=
  (s.calls.filterMap fun c => (c.2.deadline?.filter s.isDue).map fun d => (c.1, d)).mergeSort
    fun a b => a.2.nanos ≤ b.2.nanos

/-- The session goes away; nothing in that has to wait. -/
def dissolve (s : System) : System := (s.begin (.drop .closed)).resume s.begun

end NetconfClient.Session.System
