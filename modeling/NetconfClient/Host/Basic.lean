/-
  NetconfClient/Host/Basic.lean
  =============================
  **The device to open a session with.**

  It is put together from the address, from what the command line says and from
  what the ssh configuration says.  The command line wins over the configuration,
  and a port in the address wins over a configured one.
-/
import NetconfClient.Host.Address
import NetconfClient.Host.Parameters

namespace NetconfClient

/-- How to log in. -/
inductive Credentials where
  | password (text : String)
  /-- Files with keys, and behind them whatever an agent offers. -/
  | publicKey (files : List String)
  deriving DecidableEq, Repr

/-- A device to open a session with. -/
structure Host where
  /-- The name as it was given; log records about the device bear it. -/
  address : String
  /-- The name to connect to. -/
  hostName : String
  port : Nat
  user : String
  credentials : Credentials
  parameters : Parameters
  deriving DecidableEq, Repr

namespace Host

/-- The registered port of NETCONF over SSH. -/
def standardPort : Nat := 830

/-- A password wins over key files; without either there is no way to log in. -/
def credentials? (password : Option String) (files : Option (List String)) :
    Option Credentials :=
  match password, files with
  | some text, _ => some (.password text)
  | none, some (file :: files) => some (.publicKey (file :: files))
  | none, _ => none

/-- The device with that address. -/
def resolve (text : String) (username password : Option String) (parameters : Parameters) :
    Except Fault Host :=
  match Address.parse text with
  | .error fault => .error fault
  | .ok address =>
    match username <|> parameters.user with
    | none => .error (.other ("No username for host '" ++ text ++ "'"))
    | some user =>
      match credentials? password parameters.identityFiles with
      | none => .error (.other ("No password or identity file for host '" ++ text ++ "'"))
      | some credentials =>
        .ok {
          address := address.name
          hostName := parameters.hostName.getD address.name
          port := (address.port <|> parameters.port).getD standardPort
          user := user
          credentials := credentials
          parameters := parameters }

/-- The device with that address, completed from what is configured; `query` is asked
    about the text as it was given. -/
def configured (query : String → Parameters) (username password : Option String)
    (text : String) : Except Fault Host :=
  resolve text username password (query text)

end Host

end NetconfClient
