/-
  NetconfClient/Command/Setup.lean
  ================================
  **What a command goes by.**

  The command line, the files and the ssh configuration are put together once;
  the configuration is asked about an address as it was given.
-/
import NetconfClient.Command.Workspace
import NetconfClient.CommandLine.Invocation
import NetconfClient.Host.Basic

namespace NetconfClient.Command

open CommandLine

/-- What a command goes by. -/
structure Setup where
  invocation : Invocation
  workspace : Workspace
  configuration : Option HostConfiguration

namespace Setup

/-- Reads the ssh configuration, and tells about it. -/
def prepare (invocation : Invocation) (workspace : Workspace) : List Record × Setup :=
  match workspace.configuration with
  | (log, configuration) => (log, ⟨invocation, workspace, configuration⟩)

/-- What is configured for an address. -/
def parameters (s : Setup) (address : String) : Parameters :=
  match s.configuration with
  | some configuration => configuration.query address
  | none => .empty

/-- The device with that address. -/
def host (s : Setup) (address : String) : Except Fault Host :=
  Host.configured s.parameters s.invocation.username s.invocation.password address

/-- Resolves addresses up to the first that has no device. -/
def hostsOf (s : Setup) : List String → Except Fault (List Host)
  | [] => .ok []
  | address :: rest =>
    match s.host address with
    | .error fault => .error fault
    | .ok host =>
      match s.hostsOf rest with
      | .error fault => .error fault
      | .ok hosts => .ok (host :: hosts)

/-- The devices that the command is for; there has to be one. -/
def hosts (s : Setup) : Except Fault (List Host) :=
  if s.invocation.addresses.isEmpty then .error (.other "No host provided")
  else s.hostsOf s.invocation.addresses

end Setup

end NetconfClient.Command
