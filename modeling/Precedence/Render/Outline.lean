import Precedence.SyntaxTree.Basic
import Precedence.Text.Lines

/-!
# Trees as outlines

An outline has one line for each node of a tree. Before a node stand a connector, which tells the
last child from the others, and for each ancestor below the root two characters, which tell
whether more of its siblings follow. A node with a lexeme shows its quoted text and its place.
-/

namespace Precedence.SyntaxTree

open Text (joinLines quoteCharacters)

/-- What an outline shows of a node. -/
def label (symbol : String) : Option Lexeme → List Char
  | some lexeme =>
    symbol.toList ++ ' ' :: quoteCharacters lexeme.text.toList ++ ' ' :: lexeme.place.toList
  | none => symbol.toList

/-- What stands right before the label of a child. -/
def connector (isLast : Bool) : List Char :=
  if isLast then ['└', '─', ' '] else ['├', '─', ' ']

/-- What stands for a child before the nodes below it. -/
def continuation (isLast : Bool) : List Char :=
  if isLast then [' ', ' '] else ['│', ' ']

mutual

/-- The lines of a child and the nodes below it. -/
def outlineChild (indent : List Char) (isLast : Bool) : SyntaxTree → List (List Char)
  | .node symbol lexeme children =>
    (indent ++ connector isLast ++ label symbol lexeme) ::
      outlineChildren (indent ++ continuation isLast) children

/-- The lines of children and the nodes below them. -/
def outlineChildren (indent : List Char) : List SyntaxTree → List (List Char)
  | [] => []
  | child :: children =>
    outlineChild indent children.isEmpty child ++ outlineChildren indent children

end

/-- The lines of the outline of a tree. -/
def outlineLines (tree : SyntaxTree) : List (List Char) :=
  label tree.symbol tree.lexeme? :: outlineChildren [] tree.children

/-- The outline of a tree. -/
def outline (tree : SyntaxTree) : String :=
  String.ofList (joinLines tree.outlineLines)

end Precedence.SyntaxTree
