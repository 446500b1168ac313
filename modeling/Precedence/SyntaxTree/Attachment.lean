import Precedence.SyntaxTree.Basic

/-!
# Attaching lexemes

Lexemes are attached to the leaves of a tree from left to right. A leaf takes the next lexeme if
its symbol is the kind of the lexeme; otherwise the lexeme waits for the next leaf.
-/

namespace Precedence.SyntaxTree

mutual

/-- The tree with lexemes attached to its leaves from left to right, and the lexemes left. -/
def attach : SyntaxTree → List Lexeme → SyntaxTree × List Lexeme
  | .node symbol lexeme [], next :: lexemes =>
    if next.kind = symbol then (.node symbol (some next) [], lexemes)
    else (.node symbol lexeme [], next :: lexemes)
  | .node symbol lexeme [], [] => (.node symbol lexeme [], [])
  | .node symbol lexeme (child :: children), lexemes =>
    let (child, lexemes) := attach child lexemes
    let (children, lexemes) := attachAll children lexemes
    (.node symbol lexeme (child :: children), lexemes)

/-- Trees with lexemes attached to their leaves from left to right, and the lexemes left. -/
def attachAll : List SyntaxTree → List Lexeme → List SyntaxTree × List Lexeme
  | [], lexemes => ([], lexemes)
  | tree :: trees, lexemes =>
    let (tree, lexemes) := attach tree lexemes
    let (trees, lexemes) := attachAll trees lexemes
    (tree :: trees, lexemes)

end

/-- The tree with lexemes attached to its leaves, and how many were attached. -/
def attachLexemes (tree : SyntaxTree) (lexemes : List Lexeme) : SyntaxTree × Nat :=
  let (tree, rest) := tree.attach lexemes
  (tree, lexemes.length - rest.length)

end Precedence.SyntaxTree
