import Precedence.SyntaxTree.Basic

/-!
# Trees of derivations

A derivation lists productions so that each expands the rightmost non-terminal still open. Its
tree is built by replaying it: a node takes the next production, and its children are built from
the last symbol of the body to the first. Reading a tree in the same order, each node before its
children and the children from the last to the first, gives the derivation back.
-/

namespace Precedence

/-- Why a derivation gives no tree. -/
inductive TreeError
  /-- The derivation has no production. -/
  | emptyDerivation
  /-- The derivation ran out before a symbol was expanded. -/
  | exhausted (symbol : String)
  /-- The next production expands another symbol. -/
  | mismatch (expected found : String)
  /-- Productions were left when the tree was complete. -/
  | unconsumed (remaining : Nat)
  deriving DecidableEq

/-- The message of a tree error. -/
def TreeError.message : TreeError → String
  | .emptyDerivation => "Tree error: empty derivation"
  | .exhausted symbol => s!"Tree error: derivation exhausted while expanding {symbol}"
  | .mismatch expected found =>
    s!"Tree error: expected a production for {expected}, found one for {found}"
  | .unconsumed remaining => s!"Tree error: {remaining} productions left unconsumed"

namespace SyntaxTree

/-- The trees of the symbols of a body, built from the last to the first, and what is left of the
derivation. A terminal is a leaf; `expandOne` builds the tree of a non-terminal. -/
def expandBody (grammar : Grammar)
    (expandOne : String → List Production → Except TreeError (SyntaxTree × List Production)) :
    List String → List Production → Except TreeError (List SyntaxTree × List Production)
  | [], derivation => .ok ([], derivation)
  | symbol :: symbols, derivation =>
    match expandBody grammar expandOne symbols derivation with
    | .error error => .error error
    | .ok (trees, derivation) =>
      if grammar.isNonTerminal symbol then
        match expandOne symbol derivation with
        | .error error => .error error
        | .ok (tree, derivation) => .ok (tree :: trees, derivation)
      else .ok (leaf symbol :: trees, derivation)

/-- The tree of a symbol whose expansion begins the derivation, and what is left of the
derivation. Each level uses up a production, so as many levels as there are productions are
enough. -/
def expand (grammar : Grammar) :
    Nat → String → List Production → Except TreeError (SyntaxTree × List Production)
  | 0, symbol, _ => .error (.exhausted symbol)
  | _ + 1, symbol, [] => .error (.exhausted symbol)
  | levels + 1, symbol, production :: derivation =>
    if production.head = symbol then
      match expandBody grammar (expand grammar levels) production.body derivation with
      | .error error => .error error
      | .ok (children, derivation) => .ok (.node symbol none children, derivation)
    else .error (.mismatch symbol production.head)

/-- The tree of a derivation: the first head is the root, and every production is used. -/
def ofDerivation (grammar : Grammar) : List Production → Except TreeError SyntaxTree
  | [] => .error .emptyDerivation
  | first :: others =>
    match expand grammar (others.length + 1) first.head (first :: others) with
    | .error error => .error error
    | .ok (tree, []) => .ok tree
    | .ok (_, rest) => .error (.unconsumed rest.length)

/-! ## The derivation of a tree -/

/-- The production that a node with children was expanded by. -/
def production (tree : SyntaxTree) : Production :=
  ⟨tree.symbol, tree.children.map symbol⟩

mutual

/-- The productions of the nodes with children, each before those below its node, and those below
from the last child to the first. -/
def derivation : SyntaxTree → List Production
  | .node _ _ [] => []
  | .node symbol lexeme (child :: children) =>
    production (.node symbol lexeme (child :: children)) ::
      (derivationAll children ++ derivation child)

/-- The productions of trees, from the last tree to the first. -/
def derivationAll : List SyntaxTree → List Production
  | [] => []
  | tree :: trees => derivationAll trees ++ derivation tree

end

mutual

/-- Whether the leaves of a tree without lexemes are exactly the nodes that cannot be expanded. -/
def IsBare (grammar : Grammar) : SyntaxTree → Prop
  | .node symbol lexeme children =>
    lexeme = none ∧ (children = [] ↔ ¬ grammar.isNonTerminal symbol) ∧ AllBare grammar children

/-- Whether every tree is bare and expanded to its terminals. -/
def AllBare (grammar : Grammar) : List SyntaxTree → Prop
  | [] => True
  | tree :: trees => IsBare grammar tree ∧ AllBare grammar trees

end

end SyntaxTree

end Precedence
