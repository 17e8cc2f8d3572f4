/-
  NetconfClient/Ssh/Connect.lean
  ==============================
  **Connecting to a device and logging in.**

  Preferences come before the handshake and the handshake before every login.
  With a password nothing else is tried.  Without one, the key files are tried in
  their order, then, if that was not enough, the keys of the agent.  In the end
  the library has the last word on whether the session counts as logged in, and
  only then is a channel opened.
-/
import NetconfClient.Host.Basic
import NetconfClient.Ssh.Library

namespace NetconfClient.Ssh

open Command

/-! ## 1. What is asked for -/

/-- The longest wait for a call, in milliseconds. -/
def callTimeout : Nat := 10000

/-- The settings of a connection. -/
def settingsOf (p : Parameters) : List Setting :=
  [.timeout callTimeout] ++ (p.compression.map Setting.compression).toList ++
    match p.tcpKeepAlive, p.serverAliveInterval with
    | some true, some seconds => [.keepAlive true seconds]
    | _, _ => []

/-- The preferences for a method, if the configuration says something. -/
def preference (method : Method) (algorithms : Option (List String)) : List Call :=
  (algorithms.map (Call.prefer method)).toList

/-- The calls that state preferences. -/
def preferences (p : Parameters) : List Call :=
  preference .keyExchange p.kexAlgorithms ++ preference .hostKey p.hostKeyAlgorithms ++
    preference .cipherOut p.ciphers ++ preference .cipherIn p.ciphers ++
    preference .macOut p.macs ++ preference .macIn p.macs

/-- The calls in front of every login. -/
def preparation (p : Parameters) : List Call :=
  [.create (settingsOf p)] ++ preferences p ++ [.handshake]

/-- The calls that ask an agent for its keys. -/
def agentCalls : List Call := [.agent, .agentConnect, .agentList, .agentIdentities]

/-! ## 2. Logging in -/

/-- The record of a rejected key file or key of the agent. -/
def rejection (device : String) (call : Call) (text : String) : Record :=
  match call with
  | .keyLogin _ file => (Record.warning ("Key '" ++ file ++ "' rejected: " ++ text)).about device
  | .agentLogin _ comment =>
    (Record.warning ("Agent key '" ++ comment ++ "' rejected: " ++ text)).about device
  | _ => (Record.warning text).about device

/-- Tries the keys of the agent. -/
def agentLogin (library : Library) (host : Host) (t : Trace) : Except Fault Unit × Trace :=
  match library.all agentCalls t with
  | (.error fault, t) => (.error fault, t)
  | (.ok (), t) =>
    (.ok (), library.firstAccepted (rejection host.address)
      ((library.identities t.history).map (Call.agentLogin host.user)) t)

/-- Tries the key files, then the agent. -/
def keyLogin (library : Library) (host : Host) (files : List String) (t : Trace) :
    Except Fault Unit × Trace :=
  let tried := library.firstAccepted (rejection host.address)
    (files.map (Call.keyLogin host.user)) t
  match library.isLoggedIn tried with
  | (true, t) => (.ok (), t)
  | (false, t) => agentLogin library host t

/-- Logs in with what the host has. -/
def tryLogin (library : Library) (host : Host) (t : Trace) : Except Fault Unit × Trace :=
  match host.credentials with
  | .password text => library.all [.passwordLogin host.user text] t
  | .publicKey files => keyLogin library host files t

/-- Logs in; the library tells whether it worked. -/
def login (library : Library) (host : Host) (t : Trace) : Except Fault Unit × Trace :=
  match tryLogin library host t with
  | (.error fault, t) => (.error fault, t)
  | (.ok (), t) =>
    match library.isLoggedIn t with
    | (true, t) => (.ok (), t)
    | (false, t) => (.error (.other ("Authentication failed for user '" ++ host.user ++ "'")), t)

/-! ## 3. Connecting -/

/-- What comes of a network connection where there is no network. -/
def unreachable : Except Fault Unit := .error (.io "Network is unreachable (os error 101)")

/-- Connects to a device and logs in; `dial` is what comes of the network connection. -/
def connect (library : Library) (dial : Except Fault Unit) (host : Host) (t : Trace) :
    Except Fault Unit × Trace :=
  let t := t.told ((Record.debug ("Connecting to " ++ host.hostName ++ ":" ++
    toString host.port)).about host.address)
  match dial with
  | .error fault => (.error fault, t)
  | .ok () =>
    match library.all (preparation host.parameters) t with
    | (.error fault, t) => (.error fault, t)
    | (.ok (), t) =>
      match login library host t with
      | (.error fault, t) => (.error fault, t)
      | (.ok (), t) =>
        (.ok (), t.told ((Record.debug ("Authenticated as '" ++ host.user ++ "'")).about
          host.address))

/-- The channel that carries messages. -/
def subsystemName : String := "netconf"

/-- Opens the channel of a session that is logged in. -/
def openChannel (library : Library) (t : Trace) : Except Fault Unit × Trace :=
  match library.isLoggedIn t with
  | (true, t) => library.all [.openChannel, .subsystem subsystemName] t
  | (false, t) => (.error (.other "ssh session is not authenticated"), t)

/-- Connects to a device and opens the channel. -/
def connectChannel (library : Library) (dial : Except Fault Unit) (host : Host) (t : Trace) :
    Except Fault Unit × Trace :=
  match connect library dial host t with
  | (.error fault, t) => (.error fault, t)
  | (.ok (), t) => openChannel library t

/-- Connects with a name and a password alone, and opens the channel. -/
def connectPlainly (library : Library) (dial : Except Fault Unit) (user password : String)
    (t : Trace) : Except Fault Unit × Trace :=
  match dial with
  | .error fault => (.error fault, t)
  | .ok () =>
    match library.all
        [.create [.timeout callTimeout], .handshake, .passwordLogin user password] t with
    | (.error fault, t) => (.error fault, t)
    | (.ok (), t) => openChannel library t

end NetconfClient.Ssh
