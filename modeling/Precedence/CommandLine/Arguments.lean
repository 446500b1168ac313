/-!
# Arguments

Arguments are read at two levels, before and after the name of a command. A level has a number of
arguments that are no options, and options for a grammar file, for data and for the version. The
option for a grammar file takes a value: the rest of the same argument, or the argument after it.
After a separator nothing is an option or the name of a command.
-/

namespace Precedence.CommandLine

/-- A command that the arguments may name. -/
inductive Command
  /-- Process a source file. -/
  | process
  /-- Print the action table. -/
  | table
  /-- List the views. -/
  | formats
  /-- Explain the program or a command. -/
  | help
  deriving DecidableEq

namespace Command

/-- The commands. -/
def all : List Command := [.process, .table, .formats, .help]

/-- The written name of a command. -/
def name : Command → String
  | .process => "process"
  | .table => "table"
  | .formats => "formats"
  | .help => "help"

/-- The command with a name. -/
def ofName? (name : String) : Option Command :=
  all.find? (·.name == name)

end Command

/-- What may stand on the command line before, or after, the name of a command. -/
structure Level where
  /-- The number of arguments that are no options. -/
  positionals : Nat
  /-- Whether there is an option for a grammar file. -/
  hasGrammar : Bool := false
  /-- Whether there is an option for data. -/
  hasJson : Bool := false
  /-- Whether there is an option for the version. -/
  hasVersion : Bool := false
  /-- Whether a command may be named. -/
  hasCommands : Bool := false

namespace Level

/-- The arguments before the name of a command, or without one. -/
def top : Level where
  positionals := 2
  hasGrammar := true
  hasVersion := true
  hasCommands := true

/-- The arguments of the command that processes a source file. -/
def process : Level where
  positionals := 2
  hasGrammar := true

/-- The arguments of the command that prints the action table. -/
def table : Level where
  positionals := 0
  hasGrammar := true
  hasJson := true

/-- The arguments of the command that lists the views. -/
def formats : Level where
  positionals := 0

/-- The command that an argument names at a level. -/
def command? (level : Level) (text : String) : Option Command :=
  if level.hasCommands then Command.ofName? text else none

end Level

/-- The arguments read so far. -/
structure Given where
  /-- The arguments that are no options. -/
  positionals : List String := []
  /-- The grammar file. -/
  grammar : Option String := none
  /-- Whether data is wanted. -/
  isJson : Bool := false

/-- How reading the arguments of a level ends. -/
inductive Ending
  /-- All arguments are read. -/
  | complete (given : Given)
  /-- A command is named, and other arguments follow. -/
  | command (command : Command) (rest : List String)
  /-- The version is asked for. -/
  | version
  /-- Help is asked for. -/
  | help
  /-- An argument makes no sense. -/
  | misuse

/-- What one argument means, where options are read. -/
inductive Argument
  /-- What follows are no options. -/
  | separator
  /-- The option for a grammar file, perhaps with its value. -/
  | grammar (value : Option String)
  /-- The option for data. -/
  | json
  /-- The option for the version. -/
  | version
  /-- The option for help. -/
  | help
  /-- An option that does not exist. -/
  | unknown
  /-- No option. -/
  | plain (text : String)

/-- What an option with a long name and perhaps a value after an equals sign means. -/
def longOption (level : Level) (name : String) (value : Option String) : Argument :=
  match name, value with
  | "grammar", value => if level.hasGrammar then .grammar value else .unknown
  | "json", none => if level.hasJson then .json else .unknown
  | "version", none => if level.hasVersion then .version else .unknown
  | "help", none => .help
  | _, _ => .unknown

/-- What an option with a short name and the characters right after it means. -/
def shortOption (level : Level) (name : Char) (rest : List Char) : Argument :=
  match name with
  | 'g' =>
    if !level.hasGrammar then .unknown
    else
      match rest with
      | [] => .grammar none
      | '=' :: value => .grammar (some (String.ofList value))
      | value => .grammar (some (String.ofList value))
  | 'V' => if level.hasVersion then .version else .unknown
  | 'h' => .help
  | _ => .unknown

/-- What an argument means, where options are read. -/
def Argument.ofText (level : Level) (text : String) : Argument :=
  match text.toList with
  | ['-', '-'] => .separator
  | '-' :: '-' :: option =>
    let name := String.ofList (option.takeWhile (· != '='))
    match option.dropWhile (· != '=') with
    | [] => longOption level name none
    | _ :: value => longOption level name (some (String.ofList value))
  | '-' :: name :: rest => shortOption level name rest
  | _ => .plain text

/-- The arguments read so far with a grammar file, unless there is one already. -/
def Given.addGrammar? (given : Given) (path : String) : Option Given :=
  if given.grammar.isSome then none else some { given with grammar := some path }

/-- Reads an argument that is no option, unless there are enough of them. -/
def Given.addPositional? (given : Given) (level : Level) (text : String) : Option Given :=
  if given.positionals.length < level.positionals then
    some { given with positionals := given.positionals ++ [text] }
  else none

/-- Reads arguments after the separator, none of which is an option. -/
def readPlain (level : Level) : List String → Given → Ending
  | [], given => .complete given
  | text :: texts, given =>
    match given.addPositional? level text with
    | some given => readPlain level texts given
    | none => .misuse

/-- Reads the arguments of a level; `awaitsGrammar` tells that the option for a grammar file came
right before and its value is still to come. -/
def readArguments (level : Level) : List String → Bool → Given → Ending
  | [], awaitsGrammar, given => if awaitsGrammar then .misuse else .complete given
  | text :: texts, true, given =>
    match Argument.ofText level text with
    | .plain path =>
      match given.addGrammar? path with
      | some given => readArguments level texts false given
      | none => .misuse
    | _ => .misuse
  | text :: texts, false, given =>
    match level.command? text with
    | some command => .command command texts
    | none =>
      match Argument.ofText level text with
      | .separator => readPlain level texts given
      | .grammar none =>
        if given.grammar.isSome then .misuse else readArguments level texts true given
      | .grammar (some path) =>
        match given.addGrammar? path with
        | some given => readArguments level texts false given
        | none => .misuse
      | .json =>
        if given.isJson then .misuse
        else readArguments level texts false { given with isJson := true }
      | .version => .version
      | .help => .help
      | .unknown => .misuse
      | .plain text =>
        match given.addPositional? level text with
        | some given => readArguments level texts false given
        | none => .misuse

end Precedence.CommandLine
