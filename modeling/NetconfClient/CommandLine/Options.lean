/-
  NetconfClient/CommandLine/Options.lean
  ======================================
  **The options and subcommands of the client.**

  Options stand before the subcommand or behind it.  Some are known in both
  places, some only behind their subcommand.
-/

namespace NetconfClient.CommandLine

/-- Why a command line is not carried out. -/
inductive Stop where
  | helpRequested
  | versionRequested
  /-- There is nothing to go by: neither a word nor a variable. -/
  | nothingGiven
  | unknownSubcommand
  | unknownArgument
  | missingValue
  /-- A flag is given a value. -/
  | surplusValue
  /-- What may be given once is given again in the same place. -/
  | repeatedOption
  | missingOption
  deriving DecidableEq, Repr

/-- The subcommands that do something. -/
inductive Subcommand where
  | hello
  | rpc
  | notification
  deriving DecidableEq, Repr

namespace Subcommand

/-- The word for a subcommand. -/
def name : Subcommand → String
  | hello => "hello"
  | rpc => "rpc"
  | notification => "notification"

/-- The subcommand that a word stands for. -/
def ofName? (word : String) : Option Subcommand :=
  [hello, rpc, notification].find? (·.name = word)

end Subcommand

/-- The options. -/
inductive Key where
  | verbose
  | quiet
  | host
  | username
  | password
  | file
  | stream
  | filter
  | help
  | version
  deriving DecidableEq, Repr

/-- What is done with an option each time it is given. -/
inductive Usage where
  /-- A flag that counts. -/
  | count
  /-- A flag that is given at most once. -/
  | flag
  /-- It takes a value and is given at most once. -/
  | value
  /-- It takes a value each time. -/
  | values
  /-- Nothing else is done. -/
  | ends (stop : Stop)
  deriving DecidableEq, Repr

namespace Key

/-- The long name of an option. -/
def long : Key → String
  | verbose => "verbose"
  | quiet => "quiet"
  | host => "host"
  | username => "username"
  | password => "password"
  | file => "file"
  | stream => "stream"
  | filter => "filter"
  | help => "help"
  | version => "version"

/-- The letter of an option, if it has one. -/
def short? : Key → Option Char
  | verbose => some 'v'
  | quiet => some 'q'
  | file => some 'f'
  | stream => some 's'
  | filter => some 'f'
  | help => some 'h'
  | version => some 'V'
  | host | username | password => none

/-- What is done with an option. -/
def usage : Key → Usage
  | verbose => .count
  | quiet => .flag
  | username | password | stream | filter => .value
  | host | file => .values
  | help => .ends .helpRequested
  | version => .ends .versionRequested

/-- Whether an option takes a value. -/
def takesValue (key : Key) : Bool := key.usage = .value || key.usage = .values

/-- The values that a given text stands for: hosts are listed with commas. -/
def valuesIn (key : Key) (text : String) : List String :=
  match key with
  | host => (text.toList.splitOn ',').map String.ofList
  | _ => [text]

end Key

/-- Where words stand: in front of the subcommand, or behind it. -/
inductive Place where
  | front
  | behind (subcommand : Subcommand)
  deriving DecidableEq, Repr

namespace Place

/-- The options that are known in every place. -/
def common : List Key := [.verbose, .quiet, .host, .username, .password, .help]

/-- The options that are known in a place. -/
def options : Place → List Key
  | front => common ++ [.version]
  | behind .hello => common
  | behind .rpc => common ++ [.file]
  | behind .notification => common ++ [.stream, .filter]

/-- The option with that long name. -/
def byLong? (place : Place) (name : List Char) : Option Key :=
  place.options.find? (·.long.toList = name)

/-- The option with that letter. -/
def byShort? (place : Place) (letter : Char) : Option Key :=
  place.options.find? (·.short? = some letter)

/-- What is wrong with a plain word that has no place. -/
def surplusWord : Place → Stop
  | front => .unknownSubcommand
  | behind _ => .unknownArgument

/-- What is wrong with a word behind `--`: a subcommand is not expected there any more. -/
def surplusBehindEscape (place : Place) (word : String) : Stop :=
  match place with
  | front =>
    if word = "help" ∨ (Subcommand.ofName? word).isSome then .unknownArgument
    else .unknownSubcommand
  | behind _ => .unknownArgument

end Place

/-- What comes of asking for help with the words that follow. -/
def helpOn : List String → Stop
  | [] => .helpRequested
  | [word] =>
    if word = "help" ∨ (Subcommand.ofName? word).isSome then .helpRequested
    else .unknownSubcommand
  | _ :: _ :: _ => .unknownSubcommand

end NetconfClient.CommandLine
