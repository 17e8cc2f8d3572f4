/-
  NetconfClient/Command/Run.lean
  ==============================
  **Running a command, with a scripted peer at the other end.**

  The session, the command and the peer take turns: the session runs until it can
  do no more, the peer reacts, and the session runs again.
-/
import NetconfClient.Command.Progress
import NetconfClient.Peer.Script
import NetconfClient.Session.Schedule
import NetconfClient.Ssh.Script

namespace NetconfClient.Command

open CommandLine Peer Session Ssh

/-! ## 1. Turns -/

/-- A session and its peer. -/
structure Exchange where
  system : System
  peer : Scripted

namespace Exchange

/-- The session runs, the peer reacts, and the session runs again. -/
def turn (e : Exchange) : Exchange :=
  let settled := e.system.settle
  match e.peer.react settled.link with
  | (peer, link) => ⟨{ settled with link := Scripted.part link }.settle, peer⟩

/-- Asks for a session over a link: the capabilities of the client are the standard ones. -/
def start (link : Link) (script : Peer.Script) : Except Fault Exchange :=
  match CapabilitySet.parse Config.standard.capabilities with
  | .error fault => .error fault
  | .ok own => .ok ⟨(System.start .standard own link ⟨0⟩).connect, .start script⟩

/-- Lets the greetings be exchanged, or the wait for them run out. -/
def greet (e : Exchange) : Exchange :=
  match e.turn.system.result? 0 with
  | some _ => e.turn
  | none =>
    turn { e.turn with system := e.turn.system.elapse e.system.config.helloTimeout }

/-- What the exchange of greetings came to. -/
def opened (e : Exchange) : Except Fault Unit :=
  match e.system.result? 0 with
  | some .connected => .ok ()
  | some (.failed fault) => .error fault
  | _ => .error .notConnected

/-- Carries out an order. -/
def carryOut (e : Exchange) (w : Workspace) (order : Order) :
    List Record × Progress × Exchange :=
  match beginOrder w e.system order with
  | (begun, progress, system) =>
    let e := turn { e with system := system }
    match progress.look e.system with
    | (looked, progress) =>
      match if e.peer.interrupting then progress.interrupt else ([], progress) with
      | (interrupted, progress) => (begun ++ looked ++ interrupted, progress, e)

end Exchange

/-! ## 2. One command over a session -/

/-- What a command came to. -/
inductive Verdict where
  /-- There is no such command. -/
  | unknown
  | finished (result : Except Fault Unit)
  /-- It would wait for ever. -/
  | waiting

/-- The order that a name stands for, given what the command line asks for. -/
def orderNamed (name : String) (order : Order) : Option Order :=
  if name = order.name then some order
  else
    match Subcommand.ofName? name with
    | some .hello => some .hello
    | some .rpc => some (.rpc [])
    | some .notification => some (.notification Invocation.standardStream none)
    | none => none

/-- A report of a run. -/
structure Report where
  verdict : Verdict
  log : List Record
  /-- The messages that the peer received. -/
  sent : List String

/-- Runs a command over a session. -/
def runOver (e : Exchange) (w : Workspace) (name : String) (order : Order) :
    Verdict × List Record × Exchange :=
  match orderNamed name order with
  | none => (.unknown, [], e)
  | some order =>
    match e.carryOut w order with
    | (log, .finished result, e) => (.finished result, log, e)
    | (log, _, e) => (.waiting, log, e)

/-- Runs one command over a session with a scripted peer. -/
def run (invocation : Invocation) (w : Workspace) (name : String) (script : Peer.Script) : Report :=
  match Setup.prepare invocation w with
  | (prepared, _) =>
    match Exchange.start .fresh script with
    | .error fault => ⟨.finished (.error fault), prepared, []⟩
    | .ok e =>
      let e := e.greet
      match e.opened with
      | .error fault => ⟨.finished (.error fault), prepared, e.peer.received⟩
      | .ok () =>
        match runOver e w name invocation.order with
        | (verdict, log, e) => ⟨verdict, prepared ++ log, e.peer.received⟩

end NetconfClient.Command
