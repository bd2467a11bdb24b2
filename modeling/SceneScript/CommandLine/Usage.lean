namespace SceneScript.CommandLine

inductive Usage where
  | help
  | version
  | missingArgument
  | unknownArgument
  /-- A value is missing, or is none of those that are possible. -/
  | invalidValue
  /-- A value is not written as its kind demands. -/
  | malformedValue
  | unexpectedValue
  | repeatedArgument
  | unknownCommand
  | commandAlone
  /-- A command that needs another one has options only. -/
  | missingCommand
deriving DecidableEq, Repr

namespace Usage

def status : Usage → Nat
  | help | version => 0
  | _ => 2

def helpText : String :=
  "Usage: webgal-playground [--json] [--config PATH] [COMMAND]\n\n" ++
  "Commands:\n" ++
  "  parse SCRIPT [--name NAME] [--base-path PATH] [--out PATH]\n" ++
  "  locate OUTPUT --line N,N\n" ++
  "  map SCRIPT [--line N,N] [--base-path PATH]\n" ++
  "  versions\n" ++
  "  config show | theme light|dark|toggle | location on|off | version VERSION\n" ++
  "  help"

def message : Usage → String
  | help | commandAlone => helpText
  | version => "webgal-playground 0.1.0"
  | missingArgument => "error: a required argument is missing"
  | unknownArgument => "error: unexpected argument"
  | invalidValue => "error: a value is missing or not possible"
  | malformedValue => "error: a value is not well formed"
  | unexpectedValue => "error: a value is given to an option that takes none"
  | repeatedArgument => "error: an option is given more than once"
  | unknownCommand => "error: unrecognized command"
  | missingCommand => "error: a command is missing"

end Usage
end SceneScript.CommandLine
