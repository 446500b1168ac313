import Mathlib.Data.List.Basic
import Precedence.Grammar.Derivation
import Precedence.Proofs.Grammar.Accepted
import Precedence.SyntaxTree.Derivation

/-!
# Parse trees

A parse tree of a grammar has a bare leaf for a symbol that cannot be expanded, and a node for
every production whose children are the trees of its body.
-/

namespace Precedence

namespace SyntaxTree

/-! ## Trees and lists of trees -/

/-- The nodes of trees are those of each tree. -/
theorem preOrderAll_eq (depth : Nat) (trees : List SyntaxTree) :
    preOrderAll depth trees = trees.flatMap (preOrderFrom depth) := by
  induction trees with
  | nil => rfl
  | cons tree trees ih => rw [preOrderAll, ih, List.flatMap_cons]

/-- The nodes of a tree do not depend on the depth that they are counted from. -/
theorem map_preOrderFrom (tree : SyntaxTree) (depth other : Nat) :
    (tree.preOrderFrom depth).map Prod.snd = (tree.preOrderFrom other).map Prod.snd := by
  match tree with
  | .node symbol lexeme children =>
    rw [preOrderFrom, preOrderFrom, preOrderAll_eq, preOrderAll_eq, List.map_cons, List.map_cons,
      List.map_flatMap, List.map_flatMap]
    congr 1
    exact List.flatMap_congr fun child held => map_preOrderFrom child (depth + 1) (other + 1)
termination_by sizeOf tree
decreasing_by
  have smaller := List.sizeOf_lt_of_mem held
  simp only [node.sizeOf_spec]
  omega

/-- The nodes of a tree are its root and the nodes of its children. -/
theorem preOrder_node (symbol : String) (lexeme : Option Lexeme) (children : List SyntaxTree) :
    (node symbol lexeme children).preOrder =
      node symbol lexeme children :: children.flatMap preOrder := by
  rw [preOrder, preOrderFrom, preOrderAll_eq, List.map_cons, List.map_flatMap]
  congr 1
  exact List.flatMap_congr fun child _ => map_preOrderFrom child _ _

/-- A node without children is its own leaf. -/
theorem leaves_nil (symbol : String) (lexeme : Option Lexeme) :
    (node symbol lexeme []).leaves = [node symbol lexeme []] := by
  rw [leaves, preOrder_node]
  rfl

/-- The leaves of a node with children are those of its children. -/
theorem leaves_node (symbol : String) (lexeme : Option Lexeme) {children : List SyntaxTree}
    (inner : children ≠ []) :
    (node symbol lexeme children).leaves = children.flatMap leaves := by
  have isInner : (node symbol lexeme children).isLeaf = false := by
    cases children with
    | nil => exact absurd rfl inner
    | cons => rfl
  rw [leaves, preOrder_node, List.filter_cons_of_neg (by simp [isInner]), List.filter_flatMap]
  rfl

/-- The frontier of a node with children is those of its children. -/
theorem frontier_node (grammar : Grammar) (symbol : String) (lexeme : Option Lexeme)
    {children : List SyntaxTree} (inner : children ≠ []) :
    (node symbol lexeme children).frontier grammar = children.flatMap (frontier grammar) := by
  rw [frontier, leaves_node symbol lexeme inner, List.map_flatMap, List.filter_flatMap]
  rfl

/-- The frontier of a leaf is its symbol, unless that is the empty symbol. -/
theorem frontier_leaf (grammar : Grammar) (symbol : String) :
    (leaf symbol).frontier grammar = if grammar.isEmptySymbol symbol then [] else [symbol] := by
  rw [frontier, leaf, leaves_nil, List.map_singleton, SyntaxTree.symbol]
  cases empty : grammar.isEmptySymbol symbol <;> simp [empty]

/-- The productions of trees are those of each tree, from the last to the first. -/
theorem derivationAll_eq (trees : List SyntaxTree) :
    derivationAll trees = trees.reverse.flatMap derivation := by
  induction trees with
  | nil => rfl
  | cons tree trees ih => simp [derivationAll, ih]

/-- The productions of trees in two parts are those of the second part and then the first. -/
theorem derivationAll_append (trees others : List SyntaxTree) :
    derivationAll (trees ++ others) = derivationAll others ++ derivationAll trees := by
  simp [derivationAll_eq]

/-- The derivation of trees is as long as that of each of them at least. -/
theorem length_derivation_le {tree : SyntaxTree} {trees : List SyntaxTree} (held : tree ∈ trees) :
    tree.derivation.length ≤ (derivationAll trees).length := by
  obtain ⟨before, after, rfl⟩ := List.append_of_mem held
  rw [derivationAll_append, derivationAll, List.length_append, List.length_append]
  omega

/-- The derivation of a node with children is its production and then those of its children. -/
theorem derivation_node (symbol : String) (lexeme : Option Lexeme) {children : List SyntaxTree}
    (inner : children ≠ []) :
    (node symbol lexeme children).derivation =
      ⟨symbol, children.map SyntaxTree.symbol⟩ :: derivationAll children := by
  cases children with
  | nil => exact absurd rfl inner
  | cons child children => rfl

/-- The symbols of the leaves of trees, from left to right. -/
def leafSymbols (trees : List SyntaxTree) : List String :=
  trees.flatMap fun tree => tree.leaves.map symbol

/-- A tree that a grammar derives: its leaves are bare symbols that cannot be expanded, and each
node with children is a production. -/
inductive IsParseTree (grammar : Grammar) : SyntaxTree → Prop
  /-- A leaf cannot be expanded. -/
  | terminal {symbol : String} (unexpanded : grammar.isNonTerminal symbol = false) :
      IsParseTree grammar (leaf symbol)
  /-- A node is expanded by a production. -/
  | expanded {symbol : String} {children : List SyntaxTree}
      (declared : ⟨symbol, children.map SyntaxTree.symbol⟩ ∈ grammar.productions)
      (parsed : ∀ child ∈ children, IsParseTree grammar child) :
      IsParseTree grammar (node symbol none children)

namespace IsParseTree

variable {grammar : Grammar}

/-- A node of a parse tree that stands for a production has children. -/
theorem children_ne_nil (wellFormed : grammar.WellFormed) {symbol : String}
    {children : List SyntaxTree}
    (declared : ⟨symbol, children.map SyntaxTree.symbol⟩ ∈ grammar.productions) :
    children ≠ [] := by
  rintro rfl
  exact wellFormed.body_ne_nil _ declared rfl

/-- The nodes with children of a parse tree are productions. -/
theorem production_mem {tree : SyntaxTree} (parsed : tree.IsParseTree grammar) :
    ∀ inner ∈ tree.preOrder, inner.isLeaf = false → inner.production ∈ grammar.productions := by
  induction parsed with
  | terminal =>
    intro inner held isInner
    rw [leaf, preOrder_node, List.flatMap_nil, List.mem_singleton] at held
    rw [held] at isInner
    cases isInner
  | expanded declared _ ih =>
    intro inner held isInner
    rw [preOrder_node, List.mem_cons, List.mem_flatMap] at held
    rcases held with rfl | ⟨child, isChild, held⟩
    · exact declared
    · exact ih child isChild inner held isInner

/-- The derivation of a parse tree has productions of the grammar only. -/
theorem derivation_subset (wellFormed : grammar.WellFormed) {tree : SyntaxTree}
    (parsed : tree.IsParseTree grammar) : tree.derivation ⊆ grammar.productions := by
  induction parsed with
  | terminal => exact List.nil_subset _
  | expanded declared _ ih =>
    rw [derivation_node _ _ (children_ne_nil wellFormed declared), derivationAll_eq]
    refine List.cons_subset.mpr ⟨declared, fun production held => ?_⟩
    obtain ⟨child, isChild, held⟩ := List.mem_flatMap.mp held
    exact ih child (List.mem_reverse.mp isChild) held

/-- A parse tree has children exactly when its symbol can be expanded. -/
theorem children_eq_nil_iff (wellFormed : grammar.WellFormed) {tree : SyntaxTree}
    (parsed : tree.IsParseTree grammar) :
    tree.children = [] ↔ grammar.isNonTerminal tree.symbol = false := by
  cases parsed with
  | terminal unexpanded => exact ⟨fun _ => unexpanded, fun _ => rfl⟩
  | expanded declared _ =>
    have inner := children_ne_nil wellFormed declared
    have heads := wellFormed.isNonTerminal_head declared
    exact ⟨fun none => absurd none inner, fun unexpanded => by simp_all [SyntaxTree.symbol]⟩

/-- A parse tree whose symbol cannot be expanded is a leaf. -/
theorem eq_leaf (wellFormed : grammar.WellFormed) {tree : SyntaxTree}
    (parsed : tree.IsParseTree grammar) (bare : grammar.isNonTerminal tree.symbol = false) :
    tree = leaf tree.symbol := by
  cases parsed with
  | terminal => rfl
  | expanded declared =>
    have heads := wellFormed.isNonTerminal_head declared
    simp_all [SyntaxTree.symbol]

/-- A parse tree whose symbol can be expanded has children. -/
theorem inner (wellFormed : grammar.WellFormed) {tree : SyntaxTree}
    (parsed : tree.IsParseTree grammar) (heads : grammar.isNonTerminal tree.symbol = true) :
    tree.children ≠ [] := by
  intro none
  have unexpanded := (parsed.children_eq_nil_iff wellFormed).mp none
  rw [heads] at unexpanded
  cases unexpanded

/-- A parse tree has a leaf. -/
theorem leaves_ne_nil (wellFormed : grammar.WellFormed) {tree : SyntaxTree}
    (parsed : tree.IsParseTree grammar) : tree.leaves ≠ [] := by
  induction parsed with
  | terminal => simp [leaf, leaves_nil]
  | expanded declared _ ih =>
    have inner := children_ne_nil wellFormed declared
    obtain ⟨child, isChild⟩ := List.exists_mem_of_ne_nil _ inner
    rw [leaves_node _ _ inner]
    exact fun none => ih child isChild (List.flatMap_eq_nil_iff.mp none child isChild)

/-- The symbols of the leaves of a parse tree cannot be expanded. -/
theorem isTerminalForm_leaves (wellFormed : grammar.WellFormed) {tree : SyntaxTree}
    (parsed : tree.IsParseTree grammar) :
    grammar.IsTerminalForm (tree.leaves.map SyntaxTree.symbol) := by
  induction parsed with
  | terminal unexpanded =>
    intro symbol held
    rw [leaf, leaves_nil] at held
    rw [List.mem_singleton.mp held]
    exact unexpanded
  | expanded declared _ ih =>
    intro symbol held
    rw [leaves_node _ _ (children_ne_nil wellFormed declared), List.map_flatMap,
      List.mem_flatMap] at held
    obtain ⟨child, isChild, held⟩ := held
    exact ih child isChild symbol held

end IsParseTree

end SyntaxTree

end Precedence
