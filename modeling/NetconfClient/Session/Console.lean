/-
  NetconfClient/Session/Console.lean
  ==================================
  **A session between its caller and its peer.**

  The caller gives labels to its calls and requests; what finishes is noted with
  its label.  The peer acts on the link.  After every action the session runs
  until it can do no more, and time stands still unless it is moved.
-/
import NetconfClient.Dispatch.Desk
import NetconfClient.Session.MessageId
import NetconfClient.Session.Schedule

namespace NetconfClient.Session

open Text

/-! ## 1. The console -/

/-- What becomes of the link. -/
inductive Site where
  /-- No session has been asked for. -/
  | untouched (link : Link)
  /-- A session has been given the link. -/
  | running (system : System)
  /-- The link was let go of without a session. -/
  | refused (link : Link)

/-- What a label stands for. -/
inductive CallKind where
  | connect
  | close
  /-- The caller keeps using the session until it ends. -/
  | use
  deriving DecidableEq, Repr

/-- A session, its caller and its peer. -/
structure Console where
  config : Config
  site : Site
  /-- Whether the caller has the session. -/
  holding : Bool
  /-- Whether the session is to go away once no call uses it. -/
  leaving : Bool
  /-- The labelled calls that are under way, by their numbers. -/
  calls : List (Nat × String × CallKind)
  desk : Desk
  now : Duration
  /-- The number of message identifiers made up. -/
  made : Nat

/-- What is noted about a call or a wait that has finished. -/
inductive Note where
  | done
  | sent
  | outcome (o : Outcome)

namespace Console

/-- A console before anything has happened. -/
def start (config : Config) : Console :=
  ⟨config, .untouched .fresh, false, false, [], .empty, ⟨0⟩, 0⟩

/-- The link, wherever it is. -/
def link (c : Console) : Link :=
  match c.site with
  | .untouched link | .refused link => link
  | .running system => system.link

/-- Something happens on the link. -/
def onLink (c : Console) (f : Link → Link) : Console :=
  { c with
    site :=
      match c.site with
      | .untouched link => .untouched (f link)
      | .refused link => .refused (f link)
      | .running system => .running { system with link := f system.link } }

/-- The requests of the session. -/
def registry (c : Console) : Registry :=
  match c.site with
  | .running system => system.registry
  | _ => .empty

/-- Changes the requests of the session. -/
def withRegistry (c : Console) (r : Registry) : Console :=
  match c.site with
  | .running system => { c with site := .running { system with registry := r } }
  | _ => c

/-- The session, if the caller has it. -/
def session? (c : Console) : Option System :=
  match c.site with
  | .running system => if c.holding then some system else none
  | _ => none

/-- Whether a call uses the session. -/
def inUse (c : Console) : Bool := c.calls.any fun call => call.2.2 == .use

/-! ## 2. Running -/

/-- Notes what a call has come to. -/
def note (c : Console) (label : String) (kind : CallKind) (result : CallResult) :
    (String × Note) × Console :=
  match result with
  | .connected => ((label, .done), { c with holding := kind == .connect })
  | .sent | .closed => ((label, .done), c)
  | .pending t => ((label, .sent), { c with desk := c.desk.hold label t })
  | .replied raw => ((label, .outcome (.ok raw)), c)
  | .failed fault => ((label, .outcome (.error fault)), c)

/-- Notes what calls have come to; those without a label are passed over. -/
def noteAll (c : Console) : List (Nat × CallResult) → List (String × Note) × Console
  | [] => ([], c)
  | (number, result) :: rest =>
    match c.calls.lookup number with
    | none => c.noteAll rest
    | some (label, kind) =>
      let (first, next) := c.note label kind result
      let (notes, last) :=
        noteAll { next with calls := next.calls.filter (·.1 != number) } rest
      (first :: notes, last)

/-- Runs the session, and notes which of its calls have finished. -/
def runSession (c : Console) (run : System → System) : List (String × Note) × Console :=
  match c.site with
  | .running system =>
    let after := run system
    noteAll { c with site := .running { after with results := [] } } after.results.reverse
  | _ => ([], c)

/-- Lets the session go away if it is to and nothing uses it. -/
def leave (c : Console) : Console :=
  match c.site with
  | .running system =>
    if c.leaving && !c.inUse then
      { c with leaving := false, site := .running system.dissolve }
    else c
  | _ => c

/-- Notes the waits that are over by a given time. -/
def finishWaits (c : Console) (time : Duration) : List (String × Note) × Console :=
  let (waits, desk) := c.desk.finish c.registry time
  (waits.map fun w => (w.1, Note.outcome w.2), { c with desk := desk })

/-- Calls whose time has come go on, each behind the waits that are over by then. -/
def resumeAll (c : Console) : List (Nat × Duration) → List (String × Note) × Console
  | [] => ([], c)
  | (number, time) :: rest =>
    let (waits, c) := c.finishWaits time
    let (calls, c) := c.runSession (·.resume number)
    let (notes, c) := resumeAll c.leave rest
    (waits ++ calls ++ notes, c)

/-- The calls whose time has come. -/
def dueCalls (c : Console) : List (Nat × Duration) :=
  match c.site with
  | .running system => system.dueCalls
  | _ => []

/-- Everything that can happen now happens; what finishes is noted, by label. -/
def settle (c : Console) : List (String × Note) × Console :=
  let (due, c) := c.resumeAll c.dueCalls
  let (first, c) := c.runSession (·.settle)
  let (second, c) := c.leave.runSession (·.settle)
  let (waits, c) := c.finishWaits c.now
  ((due ++ first ++ second ++ waits).mergeSort (fun a b => a.1 ≤ b.1), c)

/-! ## 3. Actions -/

/-- Begins a labelled call. -/
def beginCall (c : Console) (label : String) (kind : CallKind) (stage : Stage) : Console :=
  match c.site with
  | .running system =>
    { c with
      site := .running (system.begin stage)
      calls := c.calls ++ [(system.begun, label, kind)] }
  | _ => c

/-- Asks for a session.  Own capabilities that cannot be read end the attempt at once. -/
def connect (c : Console) : Except Fault Console :=
  match CapabilitySet.parse c.config.capabilities with
  | .ok own =>
    .ok ({ c with site := .running (.start c.config own c.link c.now) }.beginCall
      "connect" .connect .greet)
  | .error fault => .error fault

/-- The link is let go of without a session. -/
def abandon (c : Console) : Console := { c with site := .refused c.link }

/-- The next identifier. -/
def makeId (c : Console) : String × Console := (messageId (c.made + 1), { c with made := c.made + 1 })

/-- Sends a message. -/
def send (c : Console) (label message : String) : Console :=
  c.beginCall label .use (.ifOpen .plain message)

/-- Sends a request; its reply is waited for separately. -/
def sendRequest (c : Console) (label id message : String) : Console :=
  c.beginCall label .use (.ifOpen (.request id) message)

/-- Sends an operation and waits for the reply. -/
def call (c : Console) (label operation : String) : Console :=
  let (id, c) := c.makeId
  c.beginCall label .use (.ifOpen (.operation id) (rpcEnvelope id operation))

/-- Closes the session. -/
def close (c : Console) : Console :=
  { c.beginCall "close" .close .close with holding := false }

/-- Asks the peer to close the session, then closes it. -/
def closeSession (c : Console) : Console :=
  let (id, c) := c.makeId
  { c.beginCall "close_session" .close
      (.ifOpen (.farewell id) (rpcEnvelope id "<close-session/>")) with holding := false }

/-- Lets go of the session; tells whether there was one. -/
def drop (c : Console) : Bool × Console :=
  (c.session?.isSome, if c.session?.isSome then { c with holding := false, leaving := true } else c)

/-- Time passes. -/
def elapse (c : Console) (span : Duration) : Console :=
  let later : Duration := ⟨c.now.nanos + span.nanos⟩
  { c with
    now := later
    site :=
      match c.site with
      | .running system => .running (system.elapse span)
      | site => site }

/-- Subscribes to notifications. -/
def subscribe (c : Console) : Except Fault Console :=
  match c.desk.subscribe c.registry with
  | .ok (desk, registry) => .ok { c.withRegistry registry with desk := desk }
  | .error fault => .error fault

/-- Ends the subscription; tells whether there was one. -/
def unsubscribe (c : Console) : Bool × Console :=
  let (was, desk, registry) := c.desk.unsubscribe c.registry
  (was, { c.withRegistry registry with desk := desk })

/-- Whether the session has let go of the link. -/
def hasLetGo (c : Console) : Bool :=
  match c.site with
  | .untouched _ => false
  | .refused _ => true
  | .running system => system.writer == .ended && system.receiver == .ended

end Console

end NetconfClient.Session
