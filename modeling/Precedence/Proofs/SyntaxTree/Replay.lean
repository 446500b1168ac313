import Precedence.Grammar.Bundled
import Precedence.Proofs.SyntaxTree.ParseTree

/-!
# Replaying derivations

Building a tree from productions and reading the productions off a tree are inverse to each other.
The trees that can be built are the bare ones that are expanded at their root and, below it, exactly
where the grammar can expand. `expand_derivation` is the law in one direction, replaying what is
read off such a tree gives the tree and leaves what came after; `derivation_of_expand` is the law in
the other, whatever is built has been read off the front of the productions. No two such trees have
the same productions, and productions left over are those after the front.
-/

namespace Precedence.SyntaxTree

variable {grammar : Grammar}

/-- Trees are all bare when each of them is. -/
theorem allBare_iff {trees : List SyntaxTree} :
    AllBare grammar trees ↔ ∀ tree ∈ trees, tree.IsBare grammar := by
  induction trees with
  | nil => simp [AllBare]
  | cons tree trees ih => simp [AllBare, ih]

/-- A tree that productions can be replayed to. -/
structure IsExpanded (grammar : Grammar) (tree : SyntaxTree) : Prop where
  /-- The root carries no lexeme. -/
  lexeme_eq : tree.lexeme? = none
  /-- The root is expanded. -/
  inner : tree.children ≠ []
  /-- Below the root there is no lexeme, and exactly what the grammar can expand is expanded. -/
  bare : AllBare grammar tree.children

/-- A bare tree with children is expanded. -/
theorem IsBare.isExpanded {tree : SyntaxTree} (bare : tree.IsBare grammar)
    (inner : tree.children ≠ []) : tree.IsExpanded grammar := by
  obtain ⟨symbol, lexeme, children⟩ := tree
  rw [IsBare] at bare
  exact ⟨bare.1, inner, bare.2.2⟩

/-- A bare tree has children exactly when its symbol can be expanded. -/
theorem IsBare.inner_iff {tree : SyntaxTree} (bare : tree.IsBare grammar) :
    tree.children ≠ [] ↔ grammar.isNonTerminal tree.symbol = true := by
  obtain ⟨symbol, lexeme, children⟩ := tree
  rw [IsBare] at bare
  have leafIff : children = [] ↔ ¬ grammar.isNonTerminal symbol = true := bare.2.1
  show children ≠ [] ↔ grammar.isNonTerminal symbol = true
  rw [Ne, leafIff, not_not]

/-- A bare tree whose symbol cannot be expanded is a leaf. -/
theorem IsBare.eq_leaf {tree : SyntaxTree} (bare : tree.IsBare grammar)
    (unexpanded : ¬ grammar.isNonTerminal tree.symbol = true) : tree = leaf tree.symbol := by
  have none : tree.children = [] := by
    by_contra inner
    exact unexpanded (bare.inner_iff.mp inner)
  obtain ⟨symbol, lexeme, children⟩ := tree
  rw [IsBare] at bare
  have isBare : lexeme = Option.none := bare.1
  have isLeaf : children = [] := none
  rw [isBare, isLeaf]
  rfl

/-- An expanded tree whose symbol can be expanded is bare. -/
theorem IsExpanded.isBare {tree : SyntaxTree} (expanded : tree.IsExpanded grammar)
    (heads : grammar.isNonTerminal tree.symbol = true) : tree.IsBare grammar := by
  obtain ⟨symbol, lexeme, children⟩ := tree
  have isLexeme : lexeme = none := expanded.lexeme_eq
  have inner : children ≠ [] := expanded.inner
  have isHead : grammar.isNonTerminal symbol = true := heads
  rw [IsBare]
  refine ⟨isLexeme, ?_, expanded.bare⟩
  constructor
  · intro none
    exact absurd none inner
  · intro unexpanded
    exact absurd isHead unexpanded

/-- The derivation of an expanded tree begins with the production of its root. -/
theorem IsExpanded.derivation_eq {tree : SyntaxTree} (expanded : tree.IsExpanded grammar) :
    tree.derivation = tree.production :: derivationAll tree.children := by
  obtain ⟨symbol, lexeme, children⟩ := tree
  exact derivation_node symbol lexeme expanded.inner

/-! ## A tree is built back from what is read off it -/

/-- Bare trees are built back from the last to the first when each that has children is. -/
theorem expandBody_derivationAll
    {expandOne : String → List Production → Except TreeError (SyntaxTree × List Production)}
    {trees : List SyntaxTree} (bare : AllBare grammar trees)
    (builds : ∀ tree ∈ trees, tree.children ≠ [] → ∀ rest,
      expandOne tree.symbol (tree.derivation ++ rest) = .ok (tree, rest))
    (rest : List Production) :
    expandBody grammar expandOne (trees.map symbol) (derivationAll trees ++ rest) =
      .ok (trees, rest) := by
  induction trees generalizing rest with
  | nil => rfl
  | cons tree trees ih =>
    rw [AllBare] at bare
    have later := ih bare.2 (fun other held => builds other (List.mem_cons_of_mem _ held))
      (tree.derivation ++ rest)
    rw [List.map_cons, derivationAll, List.append_assoc, expandBody, later]
    by_cases heads : grammar.isNonTerminal tree.symbol = true
    · have built := builds tree List.mem_cons_self (bare.1.inner_iff.mpr heads) rest
      simp only [if_pos heads, built]
    · have isLeaf := bare.1.eq_leaf heads
      have nothing : tree.derivation = [] := by
        rw [isLeaf]
        rfl
      simp only [if_neg heads, nothing, List.nil_append, ← isLeaf]

/-- An expanded tree is built back from its derivation, and what comes after it is left. -/
theorem expand_derivation {levels : Nat} {tree : SyntaxTree} (expanded : tree.IsExpanded grammar)
    (enough : tree.derivation.length ≤ levels) (rest : List Production) :
    expand grammar levels tree.symbol (tree.derivation ++ rest) = .ok (tree, rest) := by
  induction levels generalizing tree rest with
  | zero =>
    rw [expanded.derivation_eq, List.length_cons] at enough
    omega
  | succ levels ih =>
    have builds : ∀ child ∈ tree.children, child.children ≠ [] → ∀ rest,
        expand grammar levels child.symbol (child.derivation ++ rest) = .ok (child, rest) := by
      intro child held inner rest
      have isBare := allBare_iff.mp expanded.bare child held
      have shorter := length_derivation_le held
      rw [expanded.derivation_eq, List.length_cons] at enough
      exact ih (isBare.isExpanded inner) (by omega) rest
    have built := expandBody_derivationAll expanded.bare builds rest
    have isHead : tree.production.head = tree.symbol := rfl
    have isBody : tree.production.body = tree.children.map symbol := rfl
    rw [expanded.derivation_eq, List.cons_append, expand, if_pos isHead, isBody, built]
    obtain ⟨symbol, lexeme, children⟩ := tree
    have isLexeme : lexeme = none := expanded.lexeme_eq
    rw [isLexeme]
    rfl

/-- Productions that begin with the derivation of an expanded tree are replayed to the tree, unless
some come after it; then those are left over. -/
theorem ofDerivation_append {tree : SyntaxTree} (expanded : tree.IsExpanded grammar)
    (rest : List Production) :
    ofDerivation grammar (tree.derivation ++ rest) =
      if rest = [] then .ok tree else .error (.unconsumed rest.length) := by
  have enough : tree.derivation.length ≤ (derivationAll tree.children ++ rest).length + 1 := by
    rw [expanded.derivation_eq, List.length_cons, List.length_append]
    omega
  have built := expand_derivation expanded enough rest
  rw [expanded.derivation_eq, List.cons_append] at built ⊢
  rw [ofDerivation]
  simp only [production] at built ⊢
  rw [built]
  cases rest with
  | nil => rfl
  | cons next rest => rfl

/-- A parse tree with children is expanded. -/
theorem IsParseTree.isExpanded (wellFormed : grammar.WellFormed) {tree : SyntaxTree}
    (parsed : tree.IsParseTree grammar) (inner : tree.children ≠ []) :
    tree.IsExpanded grammar := by
  induction parsed with
  | terminal => exact absurd rfl inner
  | @expanded name children declared parsed ih =>
    refine ⟨rfl, inner, allBare_iff.mpr ?_⟩
    intro child held
    cases heads : grammar.isNonTerminal child.symbol with
    | true =>
      have childInner := (parsed child held).inner wellFormed heads
      exact (ih child held childInner).isBare heads
    | false =>
      rw [(parsed child held).eq_leaf wellFormed heads, leaf, IsBare]
      refine ⟨rfl, ?_, trivial⟩
      simp [heads]

/-- The tree of the derivation of a parse tree with children is that tree. -/
theorem ofDerivation_derivation (wellFormed : grammar.WellFormed) {tree : SyntaxTree}
    (parsed : tree.IsParseTree grammar) (inner : tree.children ≠ []) :
    ofDerivation grammar tree.derivation = .ok tree := by
  have built := ofDerivation_append (parsed.isExpanded wellFormed inner) []
  rwa [List.append_nil, if_pos rfl] at built

/-! ## What is built has been read off the front -/

/-- Trees of a body are bare and have been read off the front of the productions when each tree
that is built has. -/
theorem derivationAll_of_expandBody
    {expandOne : String → List Production → Except TreeError (SyntaxTree × List Production)}
    {before : List Production}
    (reads : ∀ symbol middle tree after, middle <:+ before →
      expandOne symbol middle = .ok (tree, after) →
        tree.symbol = symbol ∧ tree.IsExpanded grammar ∧ middle = tree.derivation ++ after)
    {symbols : List String} {trees : List SyntaxTree} {after : List Production}
    (built : expandBody grammar expandOne symbols before = .ok (trees, after)) :
    trees.map symbol = symbols ∧ AllBare grammar trees ∧
      before = derivationAll trees ++ after := by
  induction symbols generalizing trees after with
  | nil =>
    cases built
    exact ⟨rfl, trivial, rfl⟩
  | cons name symbols ih =>
    rw [expandBody] at built
    cases others : expandBody grammar expandOne symbols before with
    | error error =>
      rw [others] at built
      cases built
    | ok result =>
      obtain ⟨later, middle⟩ := result
      obtain ⟨isLater, laterBare, isBefore⟩ := ih others
      have isSuffix : middle <:+ before := isBefore ▸ List.suffix_append _ _
      rw [others] at built
      by_cases heads : grammar.isNonTerminal name = true
      · simp only [if_pos heads] at built
        cases first : expandOne name middle with
        | error error =>
          rw [first] at built
          cases built
        | ok result =>
          obtain ⟨tree, rest⟩ := result
          obtain ⟨isName, expanded, isMiddle⟩ := reads name middle tree rest isSuffix first
          rw [first] at built
          cases built
          refine ⟨?_, ⟨expanded.isBare (isName.symm ▸ heads), laterBare⟩, ?_⟩
          · rw [List.map_cons, isName, isLater]
          · rw [isBefore, isMiddle, derivationAll, List.append_assoc]
      · simp only [if_neg heads] at built
        cases built
        have isBare : (leaf name).IsBare grammar := by
          rw [leaf, IsBare]
          exact ⟨rfl, ⟨fun _ => heads, fun _ => rfl⟩, trivial⟩
        refine ⟨?_, ⟨isBare, laterBare⟩, ?_⟩
        · rw [List.map_cons, isLater]
          rfl
        · rw [derivationAll, isBefore]
          exact congrArg (· ++ after) (List.append_nil _).symm

/-- A tree that is built is expanded, and its derivation is what has been taken off the front of the
productions, if no production has an empty body. -/
theorem derivation_of_expand {levels : Nat} {name : String} {before after : List Production}
    {tree : SyntaxTree} (bodies : ∀ production ∈ before, production.body ≠ [])
    (built : expand grammar levels name before = .ok (tree, after)) :
    tree.symbol = name ∧ tree.IsExpanded grammar ∧ before = tree.derivation ++ after := by
  induction levels generalizing name before after tree with
  | zero => cases built
  | succ levels ih =>
    cases before with
    | nil => cases built
    | cons first before =>
      rw [expand] at built
      by_cases heads : first.head = name
      · rw [if_pos heads] at built
        cases body : expandBody grammar (expand grammar levels) first.body before with
        | error error =>
          rw [body] at built
          cases built
        | ok result =>
          obtain ⟨children, rest⟩ := result
          rw [body] at built
          cases built
          have reads : ∀ symbol middle tree after, middle <:+ before →
              expand grammar levels symbol middle = .ok (tree, after) →
              tree.symbol = symbol ∧ tree.IsExpanded grammar ∧
                middle = tree.derivation ++ after := by
            intro symbol middle tree after isSuffix expanded
            refine ih (fun production held => ?_) expanded
            exact bodies production (List.mem_cons_of_mem _ (isSuffix.mem held))
          obtain ⟨isBody, bare, isBefore⟩ := derivationAll_of_expandBody reads body
          have inner : children ≠ [] := by
            rintro rfl
            exact bodies first List.mem_cons_self isBody.symm
          refine ⟨rfl, ⟨rfl, inner, bare⟩, ?_⟩
          have isFirst : first = ⟨name, children.map symbol⟩ := by
            rw [isBody, ← heads]
          rw [derivation_node name none inner, isFirst, isBefore, List.cons_append]
      · rw [if_neg heads] at built
        cases built

/-- The trees of a body never leave productions over as an error, if no single tree does. -/
theorem expandBody_ne_unconsumed
    {expandOne : String → List Production → Except TreeError (SyntaxTree × List Production)}
    {remaining : Nat}
    (each : ∀ symbol middle, expandOne symbol middle ≠ .error (.unconsumed remaining))
    (symbols : List String) (before : List Production) :
    expandBody grammar expandOne symbols before ≠ .error (.unconsumed remaining) := by
  intro failed
  induction symbols with
  | nil => cases failed
  | cons name symbols ih =>
    rw [expandBody] at failed
    cases others : expandBody grammar expandOne symbols before with
    | error other =>
      rw [others] at failed
      cases failed
      exact ih others
    | ok result =>
      obtain ⟨later, middle⟩ := result
      rw [others] at failed
      by_cases heads : grammar.isNonTerminal name = true
      · simp only [if_pos heads] at failed
        cases first : expandOne name middle with
        | error other =>
          rw [first] at failed
          cases failed
          exact each name middle first
        | ok result =>
          rw [first] at failed
          cases failed
      · simp only [if_neg heads] at failed
        cases failed

/-- The tree of a symbol never leaves productions over as an error. -/
theorem expand_ne_unconsumed (levels : Nat) (name : String) (before : List Production)
    (remaining : Nat) : expand grammar levels name before ≠ .error (.unconsumed remaining) := by
  intro failed
  induction levels generalizing name before with
  | zero => cases failed
  | succ levels ih =>
    cases before with
    | nil => cases failed
    | cons first before =>
      rw [expand] at failed
      by_cases heads : first.head = name
      · rw [if_pos heads] at failed
        cases body : expandBody grammar (expand grammar levels) first.body before with
        | error other =>
          rw [body] at failed
          cases failed
          exact expandBody_ne_unconsumed ih first.body before body
        | ok result =>
          rw [body] at failed
          cases failed
      · rw [if_neg heads] at failed
        cases failed

/-- Productions without empty bodies begin with the derivation of an expanded tree, or there is no
tree because there is none or one is missing. -/
theorem ofDerivation_cases {derivation : List Production}
    (bodies : ∀ production ∈ derivation, production.body ≠ []) :
    (∃ (tree : SyntaxTree) (rest : List Production), tree.IsExpanded grammar ∧
      derivation = tree.derivation ++ rest) ∨
    ∃ error, ofDerivation grammar derivation = .error error ∧
      ∀ remaining, error ≠ .unconsumed remaining := by
  cases derivation with
  | nil => exact Or.inr ⟨.emptyDerivation, rfl, fun remaining same => by cases same⟩
  | cons first others =>
    cases built : expand grammar (others.length + 1) first.head (first :: others) with
    | error error =>
      refine Or.inr ⟨error, by rw [ofDerivation, built], ?_⟩
      rintro remaining rfl
      exact expand_ne_unconsumed _ _ _ remaining built
    | ok result =>
      obtain ⟨tree, rest⟩ := result
      obtain ⟨_, expanded, isFront⟩ := derivation_of_expand bodies built
      exact Or.inl ⟨tree, rest, expanded, isFront⟩

/-- Replaying productions is inverse to reading them off a tree. A tree is replayed exactly from its
own derivation, so no two trees have the same one, and productions are left over exactly when the
derivation of a tree comes before them. -/
theorem ofDerivation_inverse (grammar : Grammar) (derivation : List Production)
    (bodies : ∀ production ∈ derivation, production.body ≠ []) :
    (∀ tree, ofDerivation grammar derivation = .ok tree ↔
      tree.IsExpanded grammar ∧ tree.derivation = derivation) ∧
    (∀ tree other : SyntaxTree, tree.IsExpanded grammar → other.IsExpanded grammar →
      tree.derivation = other.derivation → tree = other) ∧
    ∀ remaining, ofDerivation grammar derivation = .error (.unconsumed remaining) ↔
      0 < remaining ∧ ∃ tree : SyntaxTree, tree.IsExpanded grammar ∧
        tree.derivation <+: derivation ∧
        tree.derivation.length + remaining = derivation.length := by
  refine ⟨fun tree => ⟨?_, ?_⟩, ?_, fun remaining => ⟨?_, ?_⟩⟩
  · intro built
    rcases ofDerivation_cases bodies with ⟨other, rest, expanded, rfl⟩ | ⟨error, failed, _⟩
    · rw [ofDerivation_append expanded] at built
      split at built
      · rename_i none
        cases built
        rw [none, List.append_nil]
        exact ⟨expanded, rfl⟩
      · cases built
    · rw [failed] at built
      cases built
  · rintro ⟨expanded, rfl⟩
    have built := ofDerivation_append expanded []
    rwa [List.append_nil, if_pos rfl] at built
  · intro tree other expanded otherExpanded same
    have built := ofDerivation_append expanded []
    have otherBuilt := ofDerivation_append otherExpanded []
    rw [same, otherBuilt, if_pos rfl, if_pos rfl, Except.ok.injEq] at built
    exact built.symm
  · intro left
    rcases ofDerivation_cases bodies with ⟨tree, rest, expanded, rfl⟩ | ⟨error, failed, different⟩
    · rw [ofDerivation_append expanded] at left
      split at left
      · cases left
      · rename_i some
        cases left
        refine ⟨List.length_pos_iff.mpr some, tree, expanded, List.prefix_append _ _, ?_⟩
        rw [List.length_append]
    · rw [failed] at left
      cases left
      exact absurd rfl (different remaining)
  · rintro ⟨positive, tree, expanded, ⟨rest, rfl⟩, lengths⟩
    rw [List.length_append, Nat.add_left_cancel_iff] at lengths
    have some : rest ≠ [] := by
      rintro rfl
      rw [List.length_nil] at lengths
      omega
    rw [ofDerivation_append expanded, if_neg some, ← lengths]

/-- A derivation of `v` in arithmetic expressions is replayed to its tree. With a production after
it, one is left over. -/
theorem ofDerivation_inverse_arithmetic :
    let grammar := Grammar.index Ruleset.arithmetic.productions (some "ε")
    let derivation : List Production := [
      ⟨"E", ["M", "F"]⟩, ⟨"F", ["ε"]⟩, ⟨"M", ["P", "N"]⟩, ⟨"N", ["ε"]⟩, ⟨"P", ["v"]⟩]
    (∀ production ∈ derivation ++ [⟨"P", ["v"]⟩], production.body ≠ []) ∧
      (∃ tree, ofDerivation grammar derivation = .ok tree ∧ tree.IsExpanded grammar ∧
        tree.derivation = derivation) ∧
      ofDerivation grammar (derivation ++ [⟨"P", ["v"]⟩]) = .error (.unconsumed 1) ∧
      ∃ tree : SyntaxTree, tree.IsExpanded grammar ∧
        tree.derivation <+: derivation ++ [⟨"P", ["v"]⟩] ∧ tree.derivation.length + 1 = 6 := by
  intro grammar derivation
  have bodies : ∀ production ∈ derivation ++ [⟨"P", ["v"]⟩], production.body ≠ [] := by decide
  have shortBodies : ∀ production ∈ derivation, production.body ≠ [] :=
    fun production held => bodies production (List.mem_append_left _ held)
  have built : (ofDerivation grammar derivation).toOption.isSome = true := by decide +kernel
  have left : ofDerivation grammar (derivation ++ [⟨"P", ["v"]⟩]) = .error (.unconsumed 1) := by
    rfl
  refine ⟨bodies, ?_, left, ?_⟩
  · cases replayed : ofDerivation grammar derivation with
    | error error =>
      rw [replayed] at built
      cases built
    | ok tree =>
      exact ⟨tree, rfl, ((ofDerivation_inverse grammar derivation shortBodies).1 tree).mp replayed⟩
  · exact (((ofDerivation_inverse grammar _ bodies).2.2 1).mp left).2

end Precedence.SyntaxTree
