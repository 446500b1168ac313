import Precedence.Grammar.Basic
import Precedence.Lexeme.Basic

/-!
# Syntax trees

A syntax tree is a symbol with the trees that its body became. Nodes without children are leaves,
and a leaf may carry a lexeme. A tree is walked with each node before its children, or after them.
-/

namespace Precedence

/-- A symbol with the nodes that its body became, and perhaps a lexeme. -/
inductive SyntaxTree
  /-- A node; it is a leaf when it has no children. -/
  | node (symbol : String) (lexeme : Option Lexeme) (children : List SyntaxTree)

namespace SyntaxTree

/-- The symbol of the root. -/
def symbol : SyntaxTree → String
  | .node symbol _ _ => symbol

/-- The lexeme of the root. -/
def lexeme? : SyntaxTree → Option Lexeme
  | .node _ lexeme _ => lexeme

/-- The subtrees below the root, from left to right. -/
def children : SyntaxTree → List SyntaxTree
  | .node _ _ children => children

/-- Whether the root has no children. -/
def isLeaf (tree : SyntaxTree) : Bool :=
  tree.children.isEmpty

/-- A node without children and lexeme. -/
def leaf (symbol : String) : SyntaxTree :=
  .node symbol none []

mutual

/-- The nodes with their depth, each before its children; the root is at the depth given. -/
def preOrderFrom (depth : Nat) : SyntaxTree → List (Nat × SyntaxTree)
  | .node symbol lexeme children =>
    (depth, .node symbol lexeme children) :: preOrderAll (depth + 1) children

/-- The nodes of trees with their depth, each before its children. -/
def preOrderAll (depth : Nat) : List SyntaxTree → List (Nat × SyntaxTree)
  | [] => []
  | tree :: trees => preOrderFrom depth tree ++ preOrderAll depth trees

end

/-- The nodes, each before its children. -/
def preOrder (tree : SyntaxTree) : List SyntaxTree :=
  (tree.preOrderFrom 0).map Prod.snd

mutual

/-- The nodes, each after its children. -/
def postOrder : SyntaxTree → List SyntaxTree
  | .node symbol lexeme children => postOrderAll children ++ [.node symbol lexeme children]

/-- The nodes of trees, each after its children. -/
def postOrderAll : List SyntaxTree → List SyntaxTree
  | [] => []
  | tree :: trees => postOrder tree ++ postOrderAll trees

end

/-- The leaves from left to right. -/
def leaves (tree : SyntaxTree) : List SyntaxTree :=
  tree.preOrder.filter isLeaf

/-- The symbols of the leaves from left to right, without the empty symbol. -/
def frontier (grammar : Grammar) (tree : SyntaxTree) : List String :=
  (tree.leaves.map symbol).filter (!grammar.isEmptySymbol ·)

/-- The nodes with a symbol, each before its children, as deep as given; the root is at depth
zero. -/
def findAll (tree : SyntaxTree) (wanted : String) (maxDepth : Option Nat) : List SyntaxTree :=
  (tree.preOrderFrom 0).filterMap fun (depth, found) =>
    if found.symbol = wanted ∧ ∀ limit ∈ maxDepth, depth ≤ limit then some found else none

end SyntaxTree

end Precedence
