/-
  NetconfClient/Command/Workspace.lean
  ====================================
  **The files that a command finds.**
-/
import NetconfClient.Command.Record
import NetconfClient.Host.Configuration

namespace NetconfClient.Command

open Text

/-- Why a file cannot be read. -/
inductive FileError where
  | missing
  | directory
  /-- What it holds is not UTF-8. -/
  | notText
  | other (text : String)
  deriving DecidableEq, Repr

/-- The wording of each cause. -/
def FileError.message : FileError → String
  | missing => "No such file or directory (os error 2)"
  | directory => "Is a directory (os error 21)"
  | notText => "stream did not contain valid UTF-8"
  | other text => text

/-- Where a command is given: its home directory, and what comes of reading a file. -/
structure Workspace where
  home : String
  read : String → Except FileError (List UInt8)

namespace Workspace

/-- A home directory that is the working directory and holds these files. -/
def ofFiles (home : String) (files : List (String × List UInt8)) (directories : List String) :
    Workspace where
  home := home
  read := fun name =>
    match files.lookup name with
    | some octets => .ok octets
    | none => if directories.contains name then .error .directory else .error .missing

/-- The text of a file. -/
def readText (w : Workspace) (name : String) : Except FileError String :=
  match w.read name with
  | .error cause => .error cause
  | .ok octets =>
    match Utf8.decode? octets with
    | some cs => .ok (String.ofList cs)
    | none => .error .notText

/-- The name of the ssh configuration, from the home directory. -/
def configurationName : String := ".ssh/config"

/-- The path of the ssh configuration. -/
def configurationPath (w : Workspace) : String := w.home ++ "/" ++ configurationName

/-- Reads the ssh configuration, if there is a usable one, and tells about it. -/
def configuration (w : Workspace) : List Record × Option HostConfiguration :=
  match w.read configurationName with
  | .error .missing =>
    ([.debug ("No ssh configuration at '" ++ w.configurationPath ++ "'")], none)
  | .error cause =>
    ([.warning ("Could not open '" ++ w.configurationPath ++ "': " ++ cause.message)], none)
  | .ok octets =>
    match HostConfiguration.parse w.home octets with
    | .ok configuration =>
      ([.debug ("Using ssh configuration '" ++ w.configurationPath ++ "'")], some configuration)
    | .error cause =>
      ([.failure ("Failed to parse '" ++ w.configurationPath ++ "': " ++ cause.message)], none)

end Workspace

end NetconfClient.Command
