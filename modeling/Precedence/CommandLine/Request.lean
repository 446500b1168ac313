import Precedence.CommandLine.Arguments

/-!
# Requests

The arguments name a source file and a view, or a command: `process` does the same, `table` prints
the action table, `formats` lists the views, and `help` explains the program or a command.
Arguments before the name of a command are read and then forgotten.
-/

namespace Precedence.CommandLine

/-- What the arguments ask for. -/
inductive Request
  /-- Process a source file. -/
  | process (path view : String) (grammar : Option String)
  /-- Print the action table. -/
  | table (isJson : Bool) (grammar : Option String)
  /-- List the views. -/
  | formats
  /-- Print the version. -/
  | version
  /-- Print how to use the program. -/
  | help
  /-- The path or the view is missing. -/
  | incomplete
  /-- The arguments make no sense. -/
  | misuse
  deriving DecidableEq

/-- What the arguments after the name of a command ask for. -/
def requestOfCommand (command : Command) (arguments : List String) : Request :=
  match command with
  | .process =>
    match readArguments .process arguments false {} with
    | .complete given =>
      match given.positionals with
      | [path, view] => .process path view given.grammar
      | _ => .misuse
    | .help => .help
    | _ => .misuse
  | .table =>
    match readArguments .table arguments false {} with
    | .complete given => .table given.isJson given.grammar
    | .help => .help
    | _ => .misuse
  | .formats =>
    match readArguments .formats arguments false {} with
    | .complete _ => .formats
    | .help => .help
    | _ => .misuse
  | .help =>
    match arguments with
    | [] => .help
    | [topic] => if (Command.ofName? topic).isSome then .help else .misuse
    | _ => .misuse

/-- What the arguments ask for. -/
def requestOf (arguments : List String) : Request :=
  match readArguments .top arguments false {} with
  | .complete given =>
    match given.positionals with
    | [path, view] => .process path view given.grammar
    | [] => if given.grammar.isNone then .misuse else .incomplete
    | _ => .incomplete
  | .command command rest => requestOfCommand command rest
  | .version => .version
  | .help => .help
  | .misuse => .misuse

end Precedence.CommandLine
