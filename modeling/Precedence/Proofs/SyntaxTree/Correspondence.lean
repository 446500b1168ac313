import Precedence.Proofs.SyntaxTree.ParseTree

/-!
# Derivations and their trees

The parse trees of a form and the rightmost derivations from it correspond. Trees spell a
derivation to the symbols of their leaves, and every derivation to a form that cannot be expanded
is spelled by trees.
-/

namespace Precedence.SyntaxTree

variable {grammar : Grammar}

/-- Leaves are their own symbols. -/
theorem leafSymbols_map_leaf (form : List String) : leafSymbols (form.map leaf) = form := by
  induction form with
  | nil => rfl
  | cons symbol form ih =>
    rw [leafSymbols] at ih
    rw [leafSymbols, List.map_cons, List.flatMap_cons, ih, leaf, leaves_nil]
    rfl

/-- The leaves of trees in two parts are those of the first part and then the second. -/
theorem leafSymbols_append (trees others : List SyntaxTree) :
    leafSymbols (trees ++ others) = leafSymbols trees ++ leafSymbols others :=
  List.flatMap_append

/-- The leaves of a node with children are those of its children. -/
theorem leafSymbols_node (symbol : String) (lexeme : Option Lexeme) {children : List SyntaxTree}
    (inner : children ≠ []) : leafSymbols [node symbol lexeme children] = leafSymbols children := by
  simp only [leafSymbols, List.flatMap_singleton, leaves_node symbol lexeme inner,
    List.map_flatMap]

/-- The leaves of parse trees cannot be expanded. -/
theorem isTerminalForm_leafSymbols (wellFormed : grammar.WellFormed) {trees : List SyntaxTree}
    (parsed : ∀ tree ∈ trees, tree.IsParseTree grammar) :
    grammar.IsTerminalForm (leafSymbols trees) := by
  intro symbol held
  obtain ⟨tree, isTree, held⟩ := List.mem_flatMap.mp held
  exact (parsed tree isTree).isTerminalForm_leaves wellFormed symbol held

/-- Trees that spell derivations one by one spell a derivation together. -/
theorem derivation_of_trees (wellFormed : grammar.WellFormed) {trees : List SyntaxTree}
    (parsed : ∀ tree ∈ trees, tree.IsParseTree grammar)
    (spell : ∀ tree ∈ trees,
      grammar.RightmostDerivation [tree.symbol] tree.derivation (tree.leaves.map symbol)) :
    grammar.RightmostDerivation (trees.map symbol) (derivationAll trees)
      (leafSymbols trees) := by
  induction trees with
  | nil => exact .refl []
  | cons tree trees ih =>
    have laterParsed : ∀ other ∈ trees, other.IsParseTree grammar :=
      fun other held => parsed other (List.mem_cons_of_mem _ held)
    have later := ih laterParsed fun other held => spell other (List.mem_cons_of_mem _ held)
    have first := spell tree List.mem_cons_self
    exact (later.append_left [tree.symbol]).trans
      (first.append_right (isTerminalForm_leafSymbols wellFormed laterParsed))

/-- A parse tree spells a rightmost derivation from its symbol to the symbols of its leaves. -/
theorem IsParseTree.rightmostDerivation (wellFormed : grammar.WellFormed) {tree : SyntaxTree}
    (parsed : tree.IsParseTree grammar) :
    grammar.RightmostDerivation [tree.symbol] tree.derivation (tree.leaves.map symbol) := by
  induction parsed with
  | terminal =>
    rw [leaf, leaves_nil]
    exact .refl _
  | @expanded name children declared parsed ih =>
    have inner := children_ne_nil wellFormed declared
    have first : grammar.RightmostStep ⟨name, children.map SyntaxTree.symbol⟩ [name]
        (children.map SyntaxTree.symbol) := by
      simpa using Grammar.RightmostStep.expand [] [] declared grammar.isTerminalForm_nil
    rw [derivation_node name none inner, leaves_node name none inner, List.map_flatMap]
    exact .step first (derivation_of_trees wellFormed parsed ih)

/-- A rightmost derivation to a form that cannot be expanded is spelled by the parse trees of the
form that it begins with. -/
theorem exists_trees_of_derivation (wellFormed : grammar.WellFormed) {form last : List String}
    {derivation : Derivation} (derived : grammar.RightmostDerivation form derivation last)
    (terminal : grammar.IsTerminalForm last) :
    ∃ trees : List SyntaxTree, trees.map symbol = form ∧
      (∀ tree ∈ trees, tree.IsParseTree grammar) ∧ derivationAll trees = derivation ∧
      leafSymbols trees = last := by
  induction derived with
  | refl form =>
    refine ⟨form.map leaf, by simp [Function.comp_def, leaf, symbol], ?_, ?_,
      leafSymbols_map_leaf form⟩
    · intro tree held
      obtain ⟨name, isSymbol, rfl⟩ := List.mem_map.mp held
      exact .terminal (terminal name isSymbol)
    · induction form with
      | nil => rfl
      | cons name form ih =>
        rw [List.map_cons, derivationAll, ih fun other held =>
          terminal other (List.mem_cons_of_mem _ held)]
        rfl
  | @step _ _ _ production _ first _ ih =>
    obtain ⟨trees, isNext, parsed, isDerivation, isLast⟩ := ih terminal
    cases first with
    | expand before after declared unexpanded =>
      obtain ⟨opened, later, rfl, isOpened, isAfter⟩ := List.map_eq_append_iff.mp isNext
      obtain ⟨earlier, children, rfl, isBefore, isBody⟩ := List.map_eq_append_iff.mp isOpened
      have declared : ⟨production.head, children.map symbol⟩ ∈ grammar.productions := by
        rw [isBody]
        exact declared
      have inner := IsParseTree.children_ne_nil wellFormed declared
      -- The trees behind the body are leaves, so they add nothing to the derivation.
      have bare : derivationAll later = [] := by
        rw [derivationAll_eq, List.flatMap_eq_nil_iff]
        intro tree held
        have held := List.mem_reverse.mp held
        have isSymbol : tree.symbol ∈ after := isAfter ▸ List.mem_map_of_mem held
        rw [(parsed tree (List.mem_append_right _ held)).eq_leaf wellFormed (unexpanded _ isSymbol)]
        rfl
      refine ⟨earlier ++ node production.head none children :: later, ?_, ?_, ?_, ?_⟩
      · simp [isBefore, isAfter, symbol]
      · intro tree held
        rcases List.mem_append.mp held with held | held
        · exact parsed tree (List.mem_append_left _ (List.mem_append_left _ held))
        rcases List.mem_cons.mp held with rfl | held
        · exact .expanded declared fun child isChild =>
            parsed child (List.mem_append_left _ (List.mem_append_right _ isChild))
        · exact parsed tree (List.mem_append_right _ held)
      · rw [derivationAll_append, derivationAll_append, bare] at isDerivation
        rw [derivationAll_append, derivationAll, bare, derivation_node _ _ inner, ← isDerivation,
          isBody]
        rfl
      · rw [leafSymbols_append, leafSymbols_append] at isLast
        rw [List.append_cons, leafSymbols_append, leafSymbols_append, leafSymbols_node _ _ inner]
        exact isLast

/-- A rightmost derivation from a symbol to a form that cannot be expanded is spelled by a parse
tree of the symbol. -/
theorem exists_tree_of_derivation (wellFormed : grammar.WellFormed) {name : String}
    {derivation : Derivation} {last : List String}
    (derived : grammar.RightmostDerivation [name] derivation last)
    (terminal : grammar.IsTerminalForm last) :
    ∃ tree : SyntaxTree, tree.symbol = name ∧ tree.IsParseTree grammar ∧
      tree.derivation = derivation ∧ tree.leaves.map symbol = last := by
  obtain ⟨trees, isForm, parsed, isDerivation, isLast⟩ :=
    exists_trees_of_derivation wellFormed derived terminal
  obtain ⟨tree, rfl, isName⟩ := List.map_eq_singleton_iff.mp isForm
  refine ⟨tree, isName, parsed tree List.mem_cons_self, ?_, ?_⟩
  · simpa [derivationAll] using isDerivation
  · simpa [leafSymbols] using isLast

end Precedence.SyntaxTree
