/-!
# `ThinrAgent.Cli.ArgumentParser`: the command line of `update`

`argument_parser::parse` of `cli/argument_parser.cpp`: the split of the arguments at the command,
the global options and the options of `update`. The option library is a parameter. It finds the
options of a description among some arguments, or throws. The options of the other commands are left
out.
-/

set_option autoImplicit false

namespace ThinrAgent

/-- The options of `update`, with the defaults of the parser. -/
structure UpdateOptions where
  channel : String := "latest"
  policy : String := ""
  apply : Bool := false
  now : Bool := false
  deriving DecidableEq

/-- The options of `update` that are among the arguments. -/
structure UpdateArgs where
  help : Bool := false
  channel : Option String := none
  policy : Option String := none
  apply : Bool := false
  now : Bool := false
  deriving DecidableEq

/-- The options that may stand in front of a command. -/
structure GlobalArgs where
  help : Bool := false
  version : Bool := false
  config : Option String := none
  deriving DecidableEq

/-- `po::command_line_parser`, for the two descriptions. An error has the text of the exception. -/
structure OptionLibrary where
  globals : List String → Except String GlobalArgs
  update : List String → Except String UpdateArgs

/-- `po::notify`: an option that is not given has its default. -/
def UpdateArgs.notify (args : UpdateArgs) : UpdateOptions where
  channel := args.channel.getD "latest"
  policy := args.policy.getD ""
  apply := args.apply
  now := args.now

/-- An option of the form `-v`, `-vv` and so on, which sets the level by the number of its
letters. -/
def isVerbosity (arg : String) : Bool :=
  match arg.toList with
  | '-' :: rest => rest ≠ [] && rest.all (· = 'v')
  | _ => false

/-- The global options that take the next argument as their value. -/
def isGlobalValueOption (arg : String) : Bool := arg = "--config" || arg = "-c"

/-- The arguments on both sides of the command, with the number of letters in the verbosity options,
which may stand anywhere. -/
structure SplitArgs where
  verboseCount : Nat := 0
  globalArgs : List String := []
  /-- The command, when it was found. -/
  commandStr : Option String := none
  subArgs : List String := []
  deriving DecidableEq

/-- The loop over the arguments behind the name of the program: the first one that is neither an
option nor an option's value is the command. -/
def splitArgs : List String → SplitArgs → SplitArgs
  | [], s => s
  | arg :: rest, s =>
    if isVerbosity arg then
      splitArgs rest { s with verboseCount := s.verboseCount + (arg.length - 1) }
    else if s.commandStr.isSome then splitArgs rest { s with subArgs := s.subArgs ++ [arg] }
    else if arg.toList.head? = some '-' then
      match rest with
      | value :: rest' =>
        -- The value of a global option is no command.
        if isGlobalValueOption arg then
          splitArgs rest' { s with globalArgs := s.globalArgs ++ [arg, value] }
        else splitArgs (value :: rest') { s with globalArgs := s.globalArgs ++ [arg] }
      | [] => { s with globalArgs := s.globalArgs ++ [arg] }
    else splitArgs rest { s with commandStr := some arg }

/-- What the command line asks for: the help, the version, an update with its options, another
command, or nothing because the arguments are wrong. -/
inductive ParsedCommand where
  | help (commandStr : String)
  | version
  | update (options : UpdateOptions)
  | other (commandStr : String)
  | failure (errorMessage : String)

/-- The parsed command line: the command, and the options that stand in front of it. -/
structure ParsedLine where
  command : ParsedCommand
  configPath : String := ""
  verbosityLevel : Nat := 3

/-- The branch of the command `update`. A request for help comes before the options of the
update. -/
def parseUpdate (library : OptionLibrary) (subArgs : List String) : ParsedCommand :=
  match library.update subArgs with
  | .error e => .failure ("Error parsing arguments: " ++ e)
  | .ok args => if args.help then .help "update" else .update args.notify

/-- `parse`, for the arguments behind the name of the program. -/
def parseArguments (library : OptionLibrary) (argv : List String) : ParsedLine :=
  let split := splitArgs argv {}
  let commandStr := split.commandStr.getD ""
  match library.globals split.globalArgs with
  | .error e => { command := .failure ("Error parsing arguments: " ++ e) }
  | .ok globals =>
    let configPath := globals.config.getD ""
    let verbosityLevel := if 0 < split.verboseCount then min (2 + split.verboseCount) 4 else 3
    if globals.help then { command := .help commandStr, configPath, verbosityLevel }
    else if globals.version then { command := .version, configPath, verbosityLevel }
    else if commandStr = "update" then
      { command := parseUpdate library split.subArgs, configPath, verbosityLevel }
    else { command := .other commandStr, configPath, verbosityLevel }

end ThinrAgent
