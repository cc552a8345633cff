import Observatory.Model.Dimension
import Observatory.Text.Items
import Observatory.Text.Numeral

/-! Arguments of the command line.

Settings come first, then a command with arguments of its own. A setting takes its value
from behind an equals sign or from the next argument; one that is not given may be found
in the environment. An argument that starts with a hyphen names a setting, unless it
stands behind two hyphens in the arguments of a command. -/
namespace Observatory.CommandLine

/-- Where environment variables are looked up. -/
abbrev Environment := String → Option String

/-! ### Settings -/

/-- What can be set in front of the command. -/
inductive Setting where
  | catalog
  | config
  | logLevel
deriving DecidableEq

namespace Setting

def all : List Setting := [catalog, config, logLevel]

/-- The name behind two hyphens. -/
def name : Setting → String
  | catalog => "catalog"
  | config => "config"
  | logLevel => "log-level"

/-- The letter behind one hyphen. -/
def letter? : Setting → Option Char
  | catalog => some 'c'
  | _ => none

/-- The environment variable that stands for the setting. -/
def variableName : Setting → String
  | catalog => "OBS_CATALOG"
  | config => "OBS_CONFIG"
  | logLevel => "RUST_LOG"

/-- The value of a setting that is found nowhere. -/
def default? : Setting → Option String
  | catalog => none
  | config => some "config/obs.yaml"
  | logLevel => some "warn"

/-- Whether a value can be meant. A path is not empty. -/
def accepts : Setting → String → Bool
  | logLevel, _ => true
  | _, path => path ≠ ""

end Setting

/-- Whether an argument starts like a setting. A hyphen alone does not. -/
def namesSetting : List Char → Bool
  | '-' :: _ :: _ => true
  | _ => false

/-- The setting that an argument names, with the value attached to it if there is one. -/
def setting? : List Char → Option (Setting × Option String)
  | '-' :: '-' :: rest =>
    let (name, value) := Text.cut '=' rest
    (Setting.all.find? (·.name == String.ofList name)).map fun s => (s, value.map String.ofList)
  | '-' :: letter :: rest =>
    (Setting.all.find? (·.letter? == some letter)).map fun s =>
      match rest with
      | [] => (s, none)
      | '=' :: value => (s, some (String.ofList value))
      | value => (s, some (String.ofList value))
  | _ => none

/-- The settings given so far. -/
abbrev Given := List (Setting × String)

/-- Gives one more setting. None is given twice. -/
def give? (given : Given) (s : Setting) (value : String) : Option Given :=
  if (given.lookup s).isSome || !s.accepts value then none else some ((s, value) :: given)

/-- The settings in front of the command, and the command with its arguments. -/
def readSettings? (given : Given) : List String → Option (Given × String × List String)
  | [] => none
  | [arg] =>
    if namesSetting arg.toList then none else some (given, arg, [])
  | arg :: next :: rest =>
    if namesSetting arg.toList then
      match setting? arg.toList with
      | none => none
      | some (s, some value) => do readSettings? (← give? given s value) (next :: rest)
      | some (s, none) =>
        if namesSetting next.toList then none else do readSettings? (← give? given s next) rest
    else some (given, arg, next :: rest)

/-- The value of a setting: the one given, else the one of the environment, else the
usual one. -/
def settingValue? (env : Environment) (given : Given) (s : Setting) : Option String :=
  match given.lookup s with
  | some value => some value
  | none =>
    match env s.variableName with
    | some value => if s.accepts value then some value else none
    | none => s.default?

/-! ### Commands -/

/-- Parameters of a request, each with its value. -/
abbrev Parameters := List (String × String)

/-- What a command line asks for. -/
inductive Command where
  /-- The datasets that the parameters ask for. -/
  | datasets (parameters : Parameters)
  /-- The converted observations of a dataset. -/
  | data (dataset : Id) (parameters : Parameters)
  /-- The result times and aggregates of a dataset. -/
  | extras (dataset : Id) (parameters : Parameters)
  /-- The parents of the procedures in use on a platform. -/
  | parents (platform : Id)
  /-- The entities that the parameters reach. -/
  | reachable (dimension : Dimension) (parameters : Parameters)
  /-- The value kinds that there are converters for. -/
  | types

/-- The arguments of a command. Those behind two hyphens may start with a hyphen. -/
def commandArguments? : List String → Option (List String)
  | [] => some []
  | arg :: rest =>
    if arg = "--" then some rest
    else if namesSetting arg.toList then none
    else (commandArguments? rest).map (arg :: ·)

/-- Reads a parameter: a key, an equals sign and a value. -/
def parameter? (s : String) : Option (String × String) :=
  match Text.cut '=' s.toList with
  | (key, some value) => some (String.ofList (Text.trimChars key), String.ofList value)
  | (_, none) => none

def Command.read? (name : String) (args : List String) : Option Command := do
  let args ← commandArguments? args
  match name, args with
  | "datasets", parameters => return .datasets (← parameters.mapM parameter?)
  | "data", id :: parameters => return .data (← Text.int64? id) (← parameters.mapM parameter?)
  | "extras", id :: parameters => return .extras (← Text.int64? id) (← parameters.mapM parameter?)
  | "parents", [id] => return .parents (← Text.int64? id)
  | "reachable", collection :: parameters =>
    return .reachable (← Dimension.ofCollection? collection) (← parameters.mapM parameter?)
  | "types", [] => return .types
  | _, _ => none

/-! ### Command lines -/

/-- A command with the files it works on. -/
structure Arguments where
  /-- The path of the catalog. -/
  catalog : String
  /-- The path of the settings of the service. -/
  config : String
  command : Command

def Arguments.read? (env : Environment) (args : List String) : Option Arguments := do
  let (given, name, rest) ← readSettings? [] args
  let command ← Command.read? name rest
  let catalog ← settingValue? env given .catalog
  let config ← settingValue? env given .config
  return { catalog, config, command }

end Observatory.CommandLine
