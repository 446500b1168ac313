import Precedence.ActionTable
import Precedence.Text.Blank
import Precedence.Text.Lines

/-!
# Action tables as grids

A grid has a line for the columns of a table and a line for each of its rows. Row symbols stand at
the left, padded to the longest one, and every column is as wide as the longest column symbol,
with its contents at its right end and a space before it. No line ends in blanks.
-/

namespace Precedence.ActionTable

open Text (dropBlankEnd joinLines)

/-- The number of characters of the longest of some symbols, or the one given if there are none. -/
def longest (symbols : List String) (orElse : Nat) : Nat :=
  (symbols.map String.length).max?.getD orElse

/-- A text with spaces after it up to a width. -/
def padRight (width : Nat) (text : List Char) : List Char :=
  text ++ List.replicate (width - text.length) ' '

/-- A text with spaces before it up to a width. -/
def padLeft (width : Nat) (text : List Char) : List Char :=
  List.replicate (width - text.length) ' ' ++ text

/-- A line of a grid: a label, then cells with a space before each. -/
def gridLine (labelWidth cellWidth : Nat) (label : List Char) (cells : List (List Char)) :
    List Char :=
  dropBlankEnd <|
    padRight labelWidth label ++ cells.flatMap fun cell => ' ' :: padLeft cellWidth cell

/-- The lines of the grid of a table. -/
def gridLines (table : ActionTable) : List (List Char) :=
  let line := gridLine (longest table.rows 0) (longest table.columns 1)
  line [] (table.columns.map String.toList) ::
    (table.rows.zip table.cells).map fun (row, actions) =>
      line row.toList (actions.map fun action => [action.letter])

/-- The grid of a table. -/
def grid (table : ActionTable) : String :=
  String.ofList (joinLines table.gridLines)

end Precedence.ActionTable
