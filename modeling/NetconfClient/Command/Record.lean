/-
  NetconfClient/Command/Record.lean
  =================================
  **Log records.**
-/

namespace NetconfClient.Command

/-- How much a record matters. -/
inductive Level where
  | debug
  | info
  | warning
  | failure
  deriving DecidableEq, Repr

/-- The word for a level. -/
def Level.name : Level → String
  | debug => "DEBUG"
  | info => "INFO"
  | warning => "WARN"
  | failure => "ERROR"

/-- Something that is told to the user. -/
structure Record where
  level : Level
  text : String
  /-- The device that a record is about, if it is about one. -/
  target : Option String
  deriving DecidableEq, Repr

namespace Record

def debug (text : String) : Record := ⟨.debug, text, none⟩
def info (text : String) : Record := ⟨.info, text, none⟩
def failure (text : String) : Record := ⟨.failure, text, none⟩
def warning (text : String) : Record := ⟨.warning, text, none⟩

/-- The same about a device. -/
def about (r : Record) (device : String) : Record := { r with target := some device }

end Record

end NetconfClient.Command
