import Precedence.Render.Error

/-!
# Views

A view names a stage of the analysis and a format to show it in, written as the two names with a
hyphen between them. Outlines exist only for the tree.
-/

namespace Precedence

/-- What is shown. -/
inductive Stage
  /-- The lexemes. -/
  | tokens
  /-- The rightmost derivation. -/
  | derivation
  /-- The syntax tree. -/
  | tree
  /-- The action table. -/
  | table
  /-- The precedence relations. -/
  | relations
  deriving DecidableEq

namespace Stage

/-- The stages, in the order of the analysis. -/
def all : List Stage := [.tokens, .derivation, .tree, .table, .relations]

/-- The written name of a stage. -/
def name : Stage → String
  | .tokens => "tokens"
  | .derivation => "derivation"
  | .tree => "tree"
  | .table => "table"
  | .relations => "relations"

/-- The stage with a name. -/
def ofName? (name : String) : Option Stage :=
  all.find? (·.name == name)

end Stage

/-- How it is shown. -/
inductive Format
  /-- Lines of text. -/
  | simple
  /-- Indented data. -/
  | json
  /-- An outline. -/
  | treeviz
  deriving DecidableEq

namespace Format

/-- The formats. -/
def all : List Format := [.simple, .json, .treeviz]

/-- The written name of a format. -/
def name : Format → String
  | .simple => "simple"
  | .json => "json"
  | .treeviz => "treeviz"

/-- The format with a name. -/
def ofName? (name : String) : Option Format :=
  all.find? (·.name == name)

end Format

/-- A stage and a format to show it in. -/
structure View where
  /-- What is shown. -/
  stage : Stage
  /-- How it is shown. -/
  format : Format
  /-- Only a tree has an outline. -/
  outline_only_of_tree : format = .treeviz → stage = .tree
  deriving DecidableEq

namespace View

/-- The names of the stage and the format with a hyphen between them. -/
def display (view : View) : String :=
  s!"{view.stage.name}-{view.format.name}"

/-- The texts before and after the first hyphen. -/
def splitAtHyphen? (text : String) : Option (String × String) :=
  let characters := text.toList
  match characters.dropWhile (· != '-') with
  | [] => none
  | _ :: rest => some (String.ofList (characters.takeWhile (· != '-')), String.ofList rest)

/-- The view that a text names. -/
def ofText (text : String) : Except RenderError View := do
  let some (stageName, formatName) := splitAtHyphen? text | throw (.invalidFormat text)
  let some stage := Stage.ofName? stageName | throw (.invalidStage stageName)
  let some format := Format.ofName? formatName | throw (.invalidFormatType formatName)
  if outline_only_of_tree : format = .treeviz → stage = .tree then
    return { stage, format, outline_only_of_tree }
  else throw (.invalidFormatType "Format 'treeviz' only works with the tree stage")

/-- Every view: for each stage its formats. -/
def available : List View :=
  Stage.all.flatMap fun stage =>
    Format.all.filterMap fun format =>
      if outline_only_of_tree : format = .treeviz → stage = .tree then
        some { stage, format, outline_only_of_tree }
      else none

/-- The written forms of every view. -/
def availableNames : List String :=
  available.map display

end View

end Precedence
