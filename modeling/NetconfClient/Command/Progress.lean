/-
  NetconfClient/Command/Progress.lean
  ===================================
  **Carrying out an order over an open session.**

  An order is begun once, which may already be all of it; after that it waits for
  replies or for notifications.  Looking at the session shows what has come and
  moves the order on.

  The files of the `rpc` order are all read before anything is sent, and each
  operation is a call of its own, begun in the order of the files.
-/
import NetconfClient.Command.Setup
import NetconfClient.Command.Subscription
import NetconfClient.Session.Calls

namespace NetconfClient.Command

open CommandLine Session

/-- What an order waits for. -/
inductive Progress where
  /-- A reply for each file, by the number of its call. -/
  | replies (files : List (String × Nat))
  /-- The reply to the request for notifications, which come by a feed. -/
  | subscription (stream : String) (feed : Nat) (call : Nat)
  /-- Notifications, of which some have been told already. -/
  | notifications (feed : Nat) (told : Nat)
  | finished (result : Except Fault Unit)

/-! ## 1. Greetings -/

/-- What two peers have agreed on, for the user. -/
def describe (n : Negotiated) : String :=
  "Session-id: " ++ (n.greeting.sessionId.map toString).getD "-" ++
    ", base: " ++ n.base.render ++ ", peer capabilities:" ++
    String.join (n.greeting.capabilities.entries.map fun c => "\n  " ++ c.render)

/-! ## 2. Operations from files -/

/-- Reads the operations in files, up to the first that cannot be read. -/
def readOperations (w : Workspace) : List String → Except Fault (List (String × String))
  | [] => .ok []
  | file :: files =>
    match w.readText file with
    | .error cause =>
      .error (.other ("Could not read operation file '" ++ file ++ "': " ++ cause.message))
    | .ok operation =>
      match readOperations w files with
      | .error fault => .error fault
      | .ok operations => .ok ((file, operation) :: operations)

/-- Begins a call for every operation; tells which file has which call. -/
def callAll : List (String × String) → System → List (String × Nat) × System
  | [], s => ([], s)
  | (file, operation) :: rest, s =>
    match s.call operation with
    | (number, s) =>
      match callAll rest s with
      | (calls, s) => ((file, number) :: calls, s)

/-- What a call with a request has come to. -/
def outcomeOf : CallResult → Outcome
  | .replied raw => .ok raw
  | .failed fault => .error fault
  | _ => .error .notConnected

/-- What calls have come to, once all of them are over. -/
def collect (s : System) : List (String × Nat) → Option (List (String × Outcome))
  | [] => some []
  | (file, number) :: rest =>
    match s.result? number, collect s rest with
    | some result, some outcomes => some ((file, outcomeOf result) :: outcomes)
    | _, _ => none

/-- What the user is told about the operation of a file. -/
def reportOne (file : String) : Outcome → Record
  | .ok raw => .info ("Reply to '" ++ file ++ "':\n" ++ raw)
  | .error fault => .failure ("Operation '" ++ file ++ "' failed: " ++ fault.message)

/-- The number of operations that have come to nothing. -/
def failures (outcomes : List (String × Outcome)) : Nat :=
  (outcomes.filter fun o => !o.2.isOk).length

/-- What the operations came to: it is a failure if one of them is. -/
def conclude (outcomes : List (String × Outcome)) : Except Fault Unit :=
  if failures outcomes = 0 then .ok ()
  else .error (.other (toString (failures outcomes) ++ " operations failed"))

/-! ## 3. Notifications -/

/-- The text that a refusal holds. -/
def refusalMark : String := "rpc-error>"

/-- Whether a text holds another one. -/
def holds (mark : List Char) : List Char → Bool
  | [] => mark.isEmpty
  | c :: cs => mark.isPrefixOf (c :: cs) || holds mark cs

/-- Reads the filter, if there is one. -/
def readFilter (w : Workspace) : Option String → Except Fault (Option String)
  | none => .ok none
  | some file =>
    match w.readText file with
    | .error cause =>
      .error (.other ("Could not read filter file '" ++ file ++ "': " ++ cause.message))
    | .ok filter => .ok (some filter)

/-- Subscribes, then asks for the notifications, so that none of them is missed. -/
def subscribe (stream : String) (filter : Option String) (s : System) : Progress × System :=
  match s.registry.subscribe with
  | .error fault => (.finished (.error fault), s)
  | .ok (feed, registry) =>
    match { s with registry := registry }.call (createSubscription stream filter) with
    | (number, s) => (.subscription stream feed number, s)

/-- Tells the notifications that have come; behind the last one the order is over. -/
def listen (s : System) (feed told : Nat) : List Record × Progress :=
  let delivered := match s.registry.streams[feed]? with
    | some stream => stream.delivered
    | none => []
  let news := (delivered.drop told).map fun n => Record.info ("Notification:\n" ++ n)
  if s.registry.isLive feed then (news, .notifications feed delivered.length)
  else (news ++ [.debug "Notification stream ended"], .finished (.ok ()))

/-! ## 4. Orders -/

/-- Begins an order. -/
def beginOrder (w : Workspace) (s : System) : Order → List Record × Progress × System
  | .hello =>
    match s.established with
    | some n => ([.info (describe n)], .finished (.ok ()), s)
    | none => ([], .finished (.error .notConnected), s)
  | .rpc files =>
    match readOperations w files with
    | .error fault => ([], .finished (.error fault), s)
    | .ok operations =>
      match callAll operations s with
      | (calls, s) =>
        ([.debug ("Sending " ++ toString operations.length ++ " operations")], .replies calls, s)
  | .notification stream filter =>
    match readFilter w filter with
    | .error fault => ([], .finished (.error fault), s)
    | .ok filter => ([], subscribe stream filter s)

namespace Progress

/-- Looks at the session. -/
def look (s : System) : Progress → List Record × Progress
  | replies files =>
    match collect s files with
    | none => ([], replies files)
    | some outcomes =>
      (outcomes.map fun o => reportOne o.1 o.2, finished (conclude outcomes))
  | subscription stream feed number =>
    match s.result? number with
    | none => ([], subscription stream feed number)
    | some (.replied raw) =>
      if holds refusalMark.toList raw.toList then
        ([], finished (.error (.other ("Subscription refused:\n" ++ raw))))
      else
        match listen s feed 0 with
        | (log, next) => (.info ("Subscribed to stream '" ++ stream ++ "'") :: log, next)
    | some (.failed fault) => ([], finished (.error fault))
    | some _ => ([], finished (.error .notConnected))
  | notifications feed told => listen s feed told
  | finished result => ([], finished result)

/-- The user interrupts: only listening ends by it. -/
def interrupt : Progress → List Record × Progress
  | notifications _ _ => ([.debug "Interrupted"], finished (.ok ()))
  | p => ([], p)

/-- What an order has come to, if it is over. -/
def result? : Progress → Option (Except Fault Unit)
  | finished result => some result
  | _ => none

end Progress

end NetconfClient.Command
