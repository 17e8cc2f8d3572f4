/-
  NetconfClient/Ssh/Call.lean
  ===========================
  **What an ssh library is asked to do.**

  A call has a name, and some have one argument that tells them apart.
-/

namespace NetconfClient.Ssh

/-- A choice of algorithms that the two ends have to agree on. -/
inductive Method where
  | keyExchange
  | hostKey
  | cipherOut
  | cipherIn
  | macOut
  | macIn
  deriving DecidableEq, Repr

/-- The name of a method. -/
def Method.name : Method → String
  | keyExchange => "Kex"
  | hostKey => "HostKey"
  | cipherOut => "CryptCs"
  | cipherIn => "CryptSc"
  | macOut => "MacCs"
  | macIn => "MacSc"

/-- A setting of a connection. -/
inductive Setting where
  | timeout (milliseconds : Nat)
  | compression (on : Bool)
  | keepAlive (on : Bool) (seconds : Nat)
  deriving DecidableEq, Repr

/-- The text of a setting. -/
def Setting.render : Setting → String
  | timeout milliseconds => "timeout=" ++ toString milliseconds
  | compression on => "compress=" ++ toString on
  | keepAlive on seconds => "keepalive=" ++ toString on ++ "," ++ toString seconds

/-- A call. -/
inductive Call where
  | create (settings : List Setting)
  | prefer (method : Method) (algorithms : List String)
  | handshake
  | passwordLogin (user password : String)
  | keyLogin (user file : String)
  | agent
  | agentConnect
  | agentList
  | agentIdentities
  | agentLogin (user comment : String)
  /-- The question whether the session counts as logged in. -/
  | authenticated
  | openChannel
  | subsystem (name : String)
  | sendEnd
  | closeChannel
  | disconnect
  | read
  | write (octets : List UInt8)
  | flush
  deriving DecidableEq, Repr

namespace Call

/-- The name of a call. -/
def name : Call → String
  | create _ => "new"
  | prefer _ _ => "method_pref"
  | handshake => "handshake"
  | passwordLogin _ _ => "userauth_password"
  | keyLogin _ _ => "userauth_pubkey_file"
  | agent => "agent"
  | agentConnect => "agent_connect"
  | agentList => "agent_list_identities"
  | agentIdentities => "agent_identities"
  | agentLogin _ _ => "agent_userauth"
  | authenticated => "authenticated"
  | openChannel => "channel_session"
  | subsystem _ => "subsystem"
  | sendEnd => "send_eof"
  | closeChannel => "close"
  | disconnect => "disconnect"
  | read => "read"
  | write _ => "write"
  | flush => "flush"

/-- The argument that tells calls of one name apart. -/
def mark? : Call → Option String
  | prefer method _ => some method.name
  | keyLogin _ file => some file
  | agentLogin _ comment => some comment
  | subsystem name => some name
  | _ => none

/-- Whether a call tries to log in. -/
def isLogin : Call → Bool
  | passwordLogin _ _ | keyLogin _ _ | agentLogin _ _ => true
  | _ => false

end Call

end NetconfClient.Ssh
