import Precedence.CommandLine.Request
import Precedence.Loading

/-!
# Running the command line

A run does what its arguments ask for and leaves an exit code and two texts, what is printed and
what is reported as an error. Of the faults of one run the first counts: of the view, then of the
grammar, then of the source.
-/

namespace Precedence.CommandLine

/-- What a run of the program leaves. -/
structure Outcome where
  /-- The exit code. -/
  code : Nat
  /-- What is printed. -/
  output : String
  /-- What is reported as an error. -/
  errors : String
  deriving DecidableEq

/-- The list of the views under a heading. -/
def formatListing : String :=
  listing ("Available formats:" :: View.availableNames.map ("  " ++ ·))

/-- The short text on how to use the program. -/
def usage : String :=
  listing ["Usage: weakprec <path> <format> [--grammar <yaml>]",
    "       weakprec process <path> <format> [--grammar <yaml>]",
    "       weakprec table [--grammar <yaml>] [--json]",
    "       weakprec formats"]

/-- The outcome of an error. -/
def failure (error : RenderError) (listsFormats : Bool) : Outcome :=
  let listed := if listsFormats && error.isAboutView then "\n" ++ formatListing else ""
  ⟨1, "", s!"Error: {error.message}\n" ++ listed⟩

variable {m : Type → Type} [Monad m]

/-- Processes a source file: the view is read first, then the grammar, then the source. -/
def runProcess (read : String → m (Except ReadError String)) (path viewText : String)
    (grammar : Option String) : m Outcome := do
  match View.ofText viewText with
  | .error error => return failure error true
  | .ok view =>
    match ← Parser.load read grammar with
    | .error error => return failure error true
    | .ok parser =>
      match ← view.renderFile read parser path with
      | .error error => return failure error true
      | .ok output => return ⟨0, output, ""⟩

/-- Prints the action table. -/
def runTable (read : String → m (Except ReadError String)) (isJson : Bool)
    (grammar : Option String) : m Outcome := do
  match ← Parser.load read grammar with
  | .error error => return failure error false
  | .ok parser =>
    return ⟨0, if isJson then parser.table.data.indented else parser.table.grid, ""⟩

/-- Does what the arguments ask for. -/
def run (read : String → m (Except ReadError String)) (arguments : List String) : m Outcome :=
  match requestOf arguments with
  | .process path viewText grammar => runProcess read path viewText grammar
  | .table isJson grammar => runTable read isJson grammar
  | .formats => return ⟨0, formatListing, ""⟩
  | .version => return ⟨0, "weakprec 0.1.0\n", ""⟩
  | .help => return ⟨0, usage, ""⟩
  | .incomplete => return ⟨1, "", "Error: both <path> and <format> are required\n"⟩
  | .misuse => return ⟨2, "", usage⟩

end Precedence.CommandLine
