/-
  NetconfClient/Session/System.lean
  =================================
  **A session and everything that runs in it, in atomic steps.**

  A writer, a receiver and any number of calls share one session.  A step of a
  task reads or changes the shared state at most once, so every order in which
  the tasks can interleave is an order of steps: looking at the phase and acting
  on it are two steps, and so are the two halves of a teardown, of which only
  the task that closes the session takes the second.
-/
import NetconfClient.Dispatch.Registry
import NetconfClient.Message.Envelope
import NetconfClient.Session.Config
import NetconfClient.Session.Intake
import NetconfClient.Session.Link
import NetconfClient.Session.Phase

namespace NetconfClient.Session

open Text

/-! ## 1. The queue to the writer -/

/-- What the writer is told. -/
inductive Outgoing where
  | message (octets : List UInt8)
  /-- Shut the link down; nothing follows. -/
  | shutdown
  deriving DecidableEq, Repr

/-- The messages that wait for the writer. -/
structure Queue where
  items : List Outgoing
  /-- Whether the writer has stopped. -/
  closed : Bool
  /-- Whether nobody can send any more. -/
  detached : Bool
  deriving DecidableEq, Repr

/-! ## 2. Tasks -/

/-- What is left of a teardown. -/
inductive Teardown where
  /-- Close the session. -/
  | close (fault : Fault)
  /-- Fail the outstanding requests; only the task that closed the session gets here. -/
  | fail (fault : Fault)
  deriving DecidableEq, Repr

/-- What the writer does. -/
inductive Writer where
  | idle
  | writing (rest : List UInt8)
  | tearing (teardown : Teardown)
  | shutting
  | ended
  deriving DecidableEq, Repr

/-- Whether the writer waits for something, and can be stopped. -/
def Writer.waits : Writer → Bool
  | idle | writing _ | shutting => true
  | tearing _ | ended => false

/-- What the receiver does. -/
inductive Receiver where
  | reading
  | pulling
  | routing (message : String)
  /-- Receiving is over; the connecting call has to be told. -/
  | ending (fault : Fault)
  | tearing (teardown : Teardown)
  | ended
  deriving DecidableEq, Repr

/-- What a message is sent for. -/
inductive Purpose where
  /-- No reply is expected. -/
  | plain
  /-- The caller waits for the reply on his own. -/
  | request (id : String)
  /-- The call ends with the reply. -/
  | operation (id : String)
  /-- The session closes behind the reply. -/
  | farewell (id : String)
  deriving DecidableEq, Repr

/-- The identifier that a message is registered under. -/
def Purpose.id? : Purpose → Option String
  | plain => none
  | request id | operation id | farewell id => some id

/-- What a call comes to. -/
inductive CallResult where
  /-- The session is open. -/
  | connected
  /-- The message is on its way. -/
  | sent
  /-- The request is on its way; its reply can be waited for. -/
  | pending (ticket : Ticket)
  | replied (raw : String)
  | closed
  | failed (fault : Fault)
  deriving DecidableEq, Repr

/-- What a call does next. -/
inductive Stage where
  /-- Queue the own greeting. -/
  | greet
  /-- Wait for the outcome of the exchange of greetings. -/
  | awaitGreeting (deadline : Duration)
  /-- Give the exchange up: stop the receiver. -/
  | refuse (fault : Fault)
  | refuseTeardown (teardown : Teardown) (fault : Fault)
  /-- Open the session. -/
  | establish (negotiated : Negotiated)
  /-- Look whether the session is open. -/
  | ifOpen (purpose : Purpose) (message : String)
  | register (id : String) (purpose : Purpose) (message : String)
  /-- Look once more whether the session is open. -/
  | ifStillOpen (ticket : Ticket) (purpose : Purpose) (message : String)
  /-- Wait for room in the queue. -/
  | enqueue (ticket : Option Ticket) (purpose : Purpose) (message : String)
  /-- Take the registration back. -/
  | withdraw (purpose : Purpose) (fault : Fault)
  | awaitReply (ticket : Ticket) (limit : Option (Duration × Duration))
  /-- The farewell is on its way: begin to close. -/
  | beginFarewell (ticket : Ticket)
  | awaitFarewell (ticket : Ticket) (deadline : Duration)
  /-- Begin to close. -/
  | close
  /-- Queue the order to shut down. -/
  | flush (deadline : Duration)
  | joinWriter (deadline : Duration)
  | stopWriter
  | joinReceiver (deadline : Duration)
  | stopReceiver
  | closeTeardown (teardown : Teardown)
  /-- The session goes away, whatever its phase. -/
  | drop (result : CallResult)
  | dropStop (result : CallResult)
  | dropTeardown (teardown : Teardown) (result : CallResult)
  deriving DecidableEq, Repr

/-- The time at which a call gives up waiting. -/
def Stage.deadline? : Stage → Option Duration
  | awaitGreeting deadline | awaitFarewell _ deadline | flush deadline | joinWriter deadline
  | joinReceiver deadline => some deadline
  | awaitReply _ limit => limit.map (·.2)
  | _ => none

/-! ## 3. The shared state -/

/-- A session with all of its tasks. -/
structure System where
  config : Config
  /-- The own capabilities. -/
  own : CapabilitySet
  phase : Phase
  registry : Registry
  link : Link
  queue : Queue
  writer : Writer
  receiver : Receiver
  /-- Whether the writer and the receiver have been told to stop.  They do so where they
      next wait for something. -/
  writerStops : Bool
  receiverStops : Bool
  intake : Intake
  /-- The outcome of the exchange of greetings, once it is known. -/
  exchange : Option (Except Fault Negotiated)
  /-- What was agreed on, once the session is open. -/
  established : Option Negotiated
  /-- The calls that are under way, by their numbers, in the order of their beginning. -/
  calls : List (Nat × Stage)
  /-- The number of calls begun. -/
  begun : Nat
  /-- What the finished calls came to, the last one first. -/
  results : List (Nat × CallResult)
  now : Duration
  deriving Repr

namespace System

/-- A session that has just been given its link. -/
def start (config : Config) (own : CapabilitySet) (link : Link) (now : Duration) : System where
  config := config
  own := own
  phase := .connecting
  registry := .empty
  link := link
  queue := ⟨[], false, false⟩
  writer := .idle
  receiver := .reading
  writerStops := false
  receiverStops := false
  intake := .start config.messageLimit
  exchange := none
  established := none
  calls := []
  begun := 0
  results := []
  now := now

/-- The framing of messages behind the greetings. -/
def framing (s : System) : Framing :=
  match s.established with
  | some n => n.base.framing
  | none => .endOfMessage

/-- Moves to a phase, unless it is past already. -/
def advance (s : System) (p : Phase) : System := { s with phase := s.phase.advance p }

/-- The time at which a span that begins now is over. -/
def deadline (s : System) (span : Duration) : Duration := ⟨s.now.nanos + span.nanos⟩

/-- Whether a time has come. -/
def isDue (s : System) (deadline : Duration) : Bool := deadline.nanos ≤ s.now.nanos

/-- One half of a teardown. -/
def tear (s : System) : Teardown → System × Option Teardown
  | .close fault =>
    (s.advance .closed, if s.phase = .closed then none else some (.fail fault))
  | .fail fault => ({ s with registry := (s.registry.deliverError fault).2 }, none)

/-- The writer ends and what is queued is lost. -/
def endWriter (s : System) : System :=
  { s with writer := .ended, queue := { s.queue with items := [], closed := true } }

/-- The writer is told to stop. -/
def stopWriter (s : System) : System := { s with writerStops := true }

/-- The receiver is told to stop. -/
def stopReceiver (s : System) : System := { s with receiverStops := true }

/-- Nobody can send any more. -/
def detach (s : System) : System := { s with queue := { s.queue with detached := true } }

/-! ## 4. Steps of the writer -/

/-- What the writer does next when it is not told to stop. -/
def workWriter (s : System) : Option System :=
  match s.writer with
  | .idle =>
    match s.queue.items with
    | .message octets :: items =>
      some { s with writer := .writing octets, queue := { s.queue with items := items } }
    | .shutdown :: items =>
      some { s with writer := .shutting, queue := { s.queue with items := items } }
    | [] => if s.queue.detached then some { s with writer := .shutting } else none
  | .writing [] =>
    match s.link.flushFault with
    | some text => some { s with writer := .tearing (.close (.io text)) }
    | none => some { s with writer := .idle }
  | .writing (b :: bs) =>
    match s.link.write (b :: bs) with
    | .taken count link => some { s with writer := .writing ((b :: bs).drop count), link := link }
    | .failed text => some { s with writer := .tearing (.close (.io text)) }
    | .blocked => none
  | .tearing teardown =>
    match s.tear teardown with
    | (t, some rest) => some { t with writer := .tearing rest }
    | (t, none) => some t.endWriter
  | .shutting => some { s.endWriter with link := s.link.shutdown }
  | .ended => none

/-- A step of the writer, if it can take one. -/
def stepWriter (s : System) : Option System :=
  if s.writerStops && s.writer.waits then some s.endWriter else s.workWriter

/-! ## 5. Steps of the receiver -/

/-- Hands a received message to whom it is for.  Only a failed exchange of greetings
    ends the receiving. -/
def route (s : System) (message : String) : System :=
  match Inbound.classify message with
  | .ok .hello =>
    match s.intake.greet s.own message with
    | (some (.ok n), intake) =>
      { s with receiver := .pulling, intake := intake, exchange := some (.ok n) }
    | (some (.error fault), intake) =>
      { s with
        receiver := .ending (.transportClosed fault.message)
        intake := intake
        exchange := some (.error fault) }
    | (none, _) => { s with receiver := .pulling }
  | .ok (.reply id) =>
    match s.registry.deliverReply id message with
    | .ok registry => { s with receiver := .pulling, registry := registry }
    | .error _ => { s with receiver := .pulling }
  | .ok .notification =>
    { s with receiver := .pulling, registry := (s.registry.deliverNotification message).2 }
  | .ok (.unexpected _) | .error _ => { s with receiver := .pulling }

/-- What the receiver does next when it is not told to stop. -/
def workReceiver (s : System) : Option System :=
  match s.receiver with
  | .reading =>
    match s.link.read s.config.readSize with
    | .octets bs link =>
      some { s with
        receiver := .pulling
        link := link
        intake := { s.intake with framer := s.intake.framer.extend bs } }
    | .failed text => some { s with receiver := .ending (.io text) }
    | .ended =>
      some { s with
        receiver :=
          if Phase.closing.rank ≤ s.phase.rank then .ending (.transportClosed "session closed")
          else .ending .unexpectedEnd }
    | .blocked => none
  | .pulling =>
    match s.intake.framer.next with
    | (.message text, framer) =>
      some { s with receiver := .routing text, intake := { s.intake with framer := framer } }
    | (.incomplete, framer) =>
      some { s with receiver := .reading, intake := { s.intake with framer := framer } }
    | (.broken error, framer) =>
      some { s with receiver := .ending error.fault, intake := { s.intake with framer := framer } }
  | .routing message => some (s.route message)
  | .ending fault =>
    if s.intake.awaiting then
      some { s with
        receiver := .tearing (.close fault)
        intake := { s.intake with awaiting := false }
        exchange :=
          some (.error (.capabilityExchange
            ("transport failed before peer greeting: " ++ fault.message))) }
    else some { s with receiver := .tearing (.close fault) }
  | .tearing teardown =>
    match s.tear teardown with
    | (t, some rest) => some { t with receiver := .tearing rest }
    | (t, none) => some { t with receiver := .ended }
  | .ended => none

/-- A step of the receiver, if it can take one. -/
def stepReceiver (s : System) : Option System :=
  if s.receiverStops && s.receiver == .reading then some { s with receiver := .ended }
  else s.workReceiver

/-! ## 6. Steps of calls -/

/-- What a call does after a step: go on or end. -/
inductive Next where
  | goOn (stage : Stage)
  | finish (result : CallResult)
  deriving DecidableEq, Repr

/-- How a call ends that cannot send its message: closing takes the session with it. -/
def refused (purpose : Purpose) (fault : Fault) : Next :=
  match purpose with
  | .farewell _ => .goOn (.drop (.failed fault))
  | _ => .finish (.failed fault)

/-- What a call does once its message is queued. -/
def queued (s : System) (ticket : Option Ticket) (purpose : Purpose) : Next :=
  match ticket, purpose with
  | some t, .request _ => .finish (.pending t)
  | some t, .operation _ =>
    .goOn (.awaitReply t (s.config.requestTimeout.map fun limit => (limit, s.deadline limit)))
  | some t, .farewell _ => .goOn (.beginFarewell t)
  | _, _ => .finish .sent

/-- The greeting that the client sends. -/
def hello (s : System) : String := (Hello.ofCapabilities s.own).render

/-- A step of a call at a stage, if it can take one. -/
def stepStage (s : System) : Stage → Option (System × Next)
  | .greet =>
    if s.queue.closed then
      some (s, .goOn (.refuse (.transportClosed "writer stopped before hello was sent")))
    else
      some ({ s with
        queue := { s.queue with
          items := s.queue.items ++ [.message (Framing.endOfMessage.encode s.hello)] } },
        .goOn (.awaitGreeting (s.deadline s.config.helloTimeout)))
  | .awaitGreeting deadline =>
    match s.exchange with
    | some (.ok n) => some (s, .goOn (.establish n))
    | some (.error fault) => some (s, .goOn (.refuse fault))
    | none =>
      if s.isDue deadline then
        some (s, .goOn (.refuse (.capabilityExchange
          ("no greeting from peer within " ++ s.config.helloTimeout.render))))
      else none
  | .refuse fault =>
    some (s.stopReceiver,
      .goOn (.refuseTeardown (.close (.transportClosed "capability exchange failed")) fault))
  | .refuseTeardown teardown fault =>
    match s.tear teardown with
    | (t, some rest) => some (t, .goOn (.refuseTeardown rest fault))
    | (t, none) => some (t.detach, .finish (.failed fault))
  | .establish n =>
    if s.phase = .connecting then
      some ({ s.advance .opened with established := some n }, .finish .connected)
    else some ((s.advance .opened).detach, .finish (.failed .notConnected))
  | .ifOpen purpose message =>
    if s.phase = .opened then
      match purpose.id? with
      | none => some (s, .goOn (.enqueue none purpose message))
      | some id => some (s, .goOn (.register id purpose message))
    else some (s, refused purpose .notConnected)
  | .register id purpose message =>
    match s.registry.register id with
    | .ok (t, registry) => some ({ s with registry := registry }, .goOn (.ifStillOpen t purpose message))
    | .error fault => some (s, refused purpose fault)
  | .ifStillOpen t purpose message =>
    if s.phase = .opened then some (s, .goOn (.enqueue (some t) purpose message))
    else some (s, .goOn (.withdraw purpose .notConnected))
  | .enqueue t purpose message =>
    if s.queue.closed then
      match t with
      | some _ => some (s, .goOn (.withdraw purpose .notConnected))
      | none => some (s, refused purpose .notConnected)
    else if s.queue.items.length < s.config.queueDepth then
      some ({ s with
        queue := { s.queue with
          items := s.queue.items ++ [.message (s.framing.encode message)] } },
        s.queued t purpose)
    else none
  | .withdraw purpose fault =>
    match purpose.id? with
    | some id => some ({ s with registry := (s.registry.cancel id).2 }, refused purpose fault)
    | none => some (s, refused purpose fault)
  | .awaitReply t limit =>
    match s.registry.outcome? t with
    | some (.ok raw) => some (s, .finish (.replied raw))
    | some (.error fault) => some (s, .finish (.failed fault))
    | none =>
      match limit with
      | some (span, deadline) =>
        if s.isDue deadline then some (s, .finish (.failed (.timeout span))) else none
      | none => none
  | .beginFarewell t =>
    some (s.advance .closing, .goOn (.awaitFarewell t (s.deadline s.config.closeTimeout)))
  | .awaitFarewell t deadline =>
    if (s.registry.outcome? t).isSome || s.isDue deadline then some (s, .goOn .close) else none
  | .close =>
    if s.phase = .closed then some (s, .goOn (.drop .closed))
    else some (s.advance .closing, .goOn (.flush (s.deadline s.config.closeTimeout)))
  | .flush deadline =>
    if s.queue.closed then some (s, .goOn (.joinWriter deadline))
    else if s.queue.items.length < s.config.queueDepth then
      some ({ s with queue := { s.queue with items := s.queue.items ++ [.shutdown] } },
        .goOn (.joinWriter deadline))
    else if s.isDue deadline then some (s, .goOn .stopWriter)
    else none
  | .joinWriter deadline =>
    if s.writer = .ended then
      some (s, .goOn (.joinReceiver (s.deadline s.config.closeTimeout)))
    else if s.isDue deadline then some (s, .goOn .stopWriter)
    else none
  | .stopWriter =>
    some (s.stopWriter, .goOn (.joinReceiver (s.deadline s.config.closeTimeout)))
  | .joinReceiver deadline =>
    if s.receiver = .ended then
      some (s, .goOn (.closeTeardown (.close (.transportClosed "session closed"))))
    else if s.isDue deadline then some (s, .goOn .stopReceiver)
    else none
  | .stopReceiver =>
    some (s.stopReceiver, .goOn (.closeTeardown (.close (.transportClosed "session closed"))))
  | .closeTeardown teardown =>
    match s.tear teardown with
    | (t, some rest) => some (t, .goOn (.closeTeardown rest))
    | (t, none) => some (t, .goOn (.drop .closed))
  | .drop result => some (s.advance .closing, .goOn (.dropStop result))
  | .dropStop result =>
    some (s.stopReceiver.stopWriter.detach,
      .goOn (.dropTeardown (.close (.transportClosed "session dropped")) result))
  | .dropTeardown teardown result =>
    match s.tear teardown with
    | (t, some rest) => some (t, .goOn (.dropTeardown rest result))
    | (t, none) => some (t, .finish result)

/-- Sets the stage of a call. -/
def setStage (number : Nat) (stage : Stage) : List (Nat × Stage) → List (Nat × Stage) :=
  List.map fun c => if c.1 = number then (number, stage) else c

/-- A step of the call with that number, if it can take one. -/
def stepCall (s : System) (number : Nat) : Option System :=
  match s.calls.lookup number with
  | none => none
  | some stage =>
    match s.stepStage stage with
    | none => none
    | some (t, .goOn next) => some { t with calls := setStage number next t.calls }
    | some (t, .finish result) =>
      some { t with
        calls := t.calls.filter (·.1 != number)
        results := (number, result) :: t.results }

/-! ## 7. Tasks and new calls -/

/-- A task of a session. -/
inductive Task where
  | writer
  | receiver
  | call (number : Nat)
  deriving DecidableEq, Repr

/-- A step of a task, if it can take one. -/
def step (s : System) : Task → Option System
  | .writer => s.stepWriter
  | .receiver => s.stepReceiver
  | .call number => s.stepCall number

/-- Begins a call. -/
def begin (s : System) (stage : Stage) : System :=
  { s with calls := s.calls ++ [(s.begun, stage)], begun := s.begun + 1 }

/-- Time passes. -/
def elapse (s : System) (span : Duration) : System := { s with now := s.deadline span }

end System

end NetconfClient.Session
