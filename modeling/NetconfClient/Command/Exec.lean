/-
  NetconfClient/Command/Exec.lean
  ===============================
  **Running a command for every device.**

  All addresses have to be resolved before anything is done.  Then a device is
  connected to, the session opened, the command run and the session closed:
  politely behind a command that went well, at once behind one that failed.  A
  device that fails is told about and fails nothing else.
-/
import NetconfClient.Command.Run

namespace NetconfClient.Command

open CommandLine Peer Session Ssh Text

/-- What is found at the other end. -/
structure Surroundings where
  /-- What comes of the network connection. -/
  dial : Host → Except Fault Unit
  ssh : Ssh.Script
  peer : Peer.Script
  /-- The time that a command takes, in seconds, as it is told. -/
  took : String

/-! ## 1. Leaving -/

/-- The calls of a farewell, up to the first that fails. -/
def farewellCalls (script : Ssh.Script) : List Farewell → List Call
  | [] => []
  | step :: steps =>
    match script.outcome step.call with
    | .ok () => step.call :: farewellCalls script steps
    | .error _ => [step.call]

/-- The text of the error of a farewell, if it fails. -/
def farewellFault (script : Ssh.Script) : Option String :=
  Farewell.steps.findSome? fun step => script.failure? step.call

/-- Lets time pass until a call is over, at most as often as closing has parts. -/
def Exchange.await (number : Nat) : Nat → Exchange → Exchange
  | 0, e => e
  | fuel + 1, e =>
    match e.system.result? number with
    | some _ => e
    | none =>
      await number fuel
        (Exchange.turn { e with system := e.system.elapse e.system.config.closeTimeout })

/-- Ends the session: in agreement with the peer, or at once. -/
def Exchange.leave (e : Exchange) (politely : Bool) : Except Fault Unit × Exchange :=
  match if politely then e.system.closeSession else e.system.close with
  | (number, system) =>
    let e := Exchange.await number 4 (Exchange.turn (Exchange.turn { e with system := system }))
    match e.system.result? number with
    | some (.failed fault) => (.error fault, e)
    | _ => (.ok (), e)

/-! ## 2. One device -/

/-- What came of a device. -/
structure Visit where
  result : Except Fault Unit
  log : List Record
  calls : List Call
  sent : List String

/-- The number of a session in a debugging text. -/
def describeId : Option Nat → String
  | some id => "Some(" ++ toString id ++ ")"
  | none => "None"

/-- What is told about a session that has been opened. -/
def openedLog (device : String) (e : Exchange) : List Record :=
  match e.system.established with
  | none => []
  | some n =>
    [(Record.info "Connected to host").about device,
      (Record.debug ("Started Netconf session with session-id: " ++
        describeId n.greeting.sessionId ++ ", base " ++ n.base.render)).about device]

/-- What a command came to, as the outcome of a visit. -/
def Verdict.outcome (name : String) : Verdict → Except Fault Unit
  | unknown => .error (.other ("Unknown command '" ++ name ++ "'"))
  | finished result => result
  | waiting => .error .notConnected

/-- Runs a command over a session that has been opened, and ends the session. -/
def visitOpened (setup : Setup) (around : Surroundings) (name device : String) (e : Exchange) :
    Except Fault Unit × List Record × Exchange :=
  match runOver e setup.workspace name setup.invocation.order with
  | (verdict, log, e) =>
    let told := openedLog device e ++ log ++
      [(Record.info ("Operation took: " ++ around.took ++ "s")).about device]
    match verdict.outcome name with
    | .ok () =>
      match e.leave true with
      | (result, e) => (result, told, e)
    | .error fault =>
      match e.leave false with
      | (.ok (), e) => (.error fault, told, e)
      | (.error other, e) =>
        (.error fault, told ++ [(Record.debug ("Close failed: " ++ other.message)).about device], e)

/-- Opens a session, runs a command over it and ends it. -/
def visitLinked (setup : Setup) (around : Surroundings) (name device : String) (e : Exchange) :
    Except Fault Unit × List Record × Exchange :=
  match e.greet.opened with
  | .error fault => (.error fault, [], e.greet.turn)
  | .ok () => visitOpened setup around name device e.greet

/-- The calls that end the connection behind a session that has shut its link down. -/
def closingCalls (around : Surroundings) (link : Link) : List Call :=
  if link.shutDown then farewellCalls around.ssh Farewell.steps else []

/-- The link to the peer over a channel that has been opened. -/
def linkOf (around : Surroundings) : Link :=
  { Link.fresh with shutdownFault := farewellFault around.ssh }

/-- Connects to a device and runs a command there. -/
def visit (setup : Setup) (around : Surroundings) (name : String) (host : Host) : Visit :=
  match connectChannel around.ssh.library (around.dial host) host .empty with
  | (.error fault, t) => ⟨.error fault, t.log, t.calls, []⟩
  | (.ok (), t) =>
    match Exchange.start (linkOf around) around.peer with
    | .error fault => ⟨.error fault, t.log, t.calls, []⟩
    | .ok e =>
      match visitLinked setup around name host.address e with
      | (result, log, e) =>
        ⟨result, t.log ++ log, t.calls ++ closingCalls around e.system.link, e.peer.received⟩

/-! ## 3. All devices -/

/-- What is told about the end of a visit. -/
def conclusion : Except Fault Unit → Record
  | .ok () => .debug "Task completed successfully"
  | .error fault => .failure ("Task failed with error: " ++ fault.message)

/-- What came of all devices. -/
structure ExecReport where
  result : Except Fault Unit
  log : List Record
  calls : List Call
  sent : List String

/-- Runs a command for every device that the command line names. -/
def exec (invocation : Invocation) (w : Workspace) (name : String) (around : Surroundings) :
    ExecReport :=
  match Setup.prepare invocation w with
  | (prepared, setup) =>
    match setup.hosts with
    | .error fault => ⟨.error fault, prepared, [], []⟩
    | .ok hosts =>
      let visits := hosts.map (visit setup around name)
      { result := .ok ()
        log := prepared ++ visits.flatMap (fun v => v.log ++ [conclusion v.result])
        calls := visits.flatMap (·.calls)
        sent := visits.flatMap (·.sent) }

end NetconfClient.Command
