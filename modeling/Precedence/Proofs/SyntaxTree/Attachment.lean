import Precedence.Proofs.SyntaxTree.Correspondence
import Precedence.SyntaxTree.Attachment

/-!
# Attached lexemes

When the kinds of some lexemes are the symbols of the leaves of a tree, in order, every leaf takes
its lexeme and no lexeme waits. The symbols of the leaves stay what they are. Attaching walks the
leaves alone, so when the kinds are only among the symbols of the leaves, in order, still no lexeme
waits.
-/

namespace Precedence.SyntaxTree

/-- What holds of a node whenever it holds of its children holds of every tree. -/
theorem induction {motive : SyntaxTree → Prop}
    (node : ∀ symbol lexeme children, (∀ child ∈ children, motive child) →
      motive (.node symbol lexeme children)) (tree : SyntaxTree) : motive tree := by
  match tree with
  | .node symbol lexeme children =>
    exact node symbol lexeme children fun child _ => induction node child
termination_by sizeOf tree

/-- Lexemes are attached to a node with children by attaching them to its children. -/
theorem attach_node (symbol : String) (lexeme : Option Lexeme) {children : List SyntaxTree}
    (inner : children ≠ []) (lexemes : List Lexeme) :
    (node symbol lexeme children).attach lexemes =
      (node symbol lexeme (attachAll children lexemes).1, (attachAll children lexemes).2) := by
  cases children with
  | nil => exact absurd rfl inner
  | cons child children => rw [attach, attachAll]

/-- Whether attaching lexemes to a tree gives each leaf its lexeme when their kinds are the symbols
of the leaves, and leaves the lexemes after them. -/
def Attaches (tree : SyntaxTree) : Prop :=
  ∀ lexemes rest : List Lexeme, lexemes.map Lexeme.kind = tree.leaves.map symbol →
    ∃ attached, tree.attach (lexemes ++ rest) = (attached, rest) ∧
      attached.leaves.map symbol = tree.leaves.map symbol ∧
      attached.leaves.map lexeme? = lexemes.map some

/-- Lexemes are attached to trees one after another. -/
theorem attachAll_leaves {trees : List SyntaxTree} (attaches : ∀ tree ∈ trees, tree.Attaches)
    {lexemes : List Lexeme} (kinds : lexemes.map Lexeme.kind = leafSymbols trees)
    (rest : List Lexeme) :
    ∃ attached, attachAll trees (lexemes ++ rest) = (attached, rest) ∧
      attached.length = trees.length ∧ leafSymbols attached = leafSymbols trees ∧
      attached.flatMap (fun tree => tree.leaves.map lexeme?) = lexemes.map some := by
  induction trees generalizing lexemes with
  | nil =>
    obtain rfl := List.map_eq_nil_iff.mp kinds
    exact ⟨[], rfl, rfl, rfl, rfl⟩
  | cons tree trees ih =>
    rw [leafSymbols, List.flatMap_cons] at kinds
    obtain ⟨earlier, later, rfl, isEarlier, isLater⟩ := List.map_eq_append_iff.mp kinds
    obtain ⟨first, firstEq, firstSymbols, firstLexemes⟩ :=
      attaches tree List.mem_cons_self earlier (later ++ rest) isEarlier
    obtain ⟨others, othersEq, isLength, otherSymbols, otherLexemes⟩ :=
      ih (fun other held => attaches other (List.mem_cons_of_mem _ held)) isLater
    refine ⟨first :: others, ?_, ?_, ?_, ?_⟩
    · rw [attachAll, List.append_assoc, firstEq]
      simp only [othersEq]
    · rw [List.length_cons, List.length_cons, isLength]
    · rw [leafSymbols] at otherSymbols
      rw [leafSymbols, List.flatMap_cons, firstSymbols, otherSymbols]
      rfl
    · rw [List.flatMap_cons, firstLexemes, otherLexemes, List.map_append]

/-- Lexemes whose kinds are the symbols of the leaves are attached to the leaves in order. -/
theorem attach_leaves (tree : SyntaxTree) : tree.Attaches := by
  induction tree using induction with
  | node symbol lexeme children ih =>
    intro lexemes rest kinds
    by_cases inner : children = []
    · subst inner
      rw [leaves_nil] at kinds
      obtain ⟨item, rfl, isKind⟩ := List.map_eq_singleton_iff.mp kinds
      refine ⟨node symbol (some item) [], ?_, ?_, ?_⟩
      · rw [List.singleton_append, attach]
        exact if_pos isKind
      · rw [leaves_nil, leaves_nil]
        rfl
      · rw [leaves_nil]
        rfl
    · rw [leaves_node symbol lexeme inner, List.map_flatMap] at kinds
      obtain ⟨attached, isAttached, isLength, symbols, lexemesOf⟩ :=
        attachAll_leaves ih kinds rest
      have stillInner : attached ≠ [] := by
        rintro rfl
        exact inner (List.length_eq_zero_iff.mp isLength.symm)
      refine ⟨node symbol lexeme attached, ?_, ?_, ?_⟩
      · rw [attach_node symbol lexeme inner, isAttached]
      · rw [leaves_node symbol lexeme stillInner, leaves_node symbol lexeme inner,
          List.map_flatMap, List.map_flatMap]
        exact symbols
      · rw [leaves_node symbol lexeme stillInner, List.map_flatMap]
        exact lexemesOf

/-- Attaching lexemes whose kinds are the symbols of the leaves gives every leaf its lexeme. -/
theorem attachLexemes_leaves (tree : SyntaxTree) {lexemes : List Lexeme}
    (kinds : lexemes.map Lexeme.kind = tree.leaves.map symbol) :
    (tree.attachLexemes lexemes).1.leaves.map symbol = lexemes.map Lexeme.kind ∧
      (tree.attachLexemes lexemes).1.leaves.map lexeme? = lexemes.map some := by
  obtain ⟨attached, isAttached, symbols, lexemesOf⟩ := tree.attach_leaves lexemes [] kinds
  rw [List.append_nil] at isAttached
  rw [attachLexemes, isAttached]
  exact ⟨symbols.trans kinds.symm, lexemesOf⟩

/-! ## Lexemes among the leaves -/

/-- Lexemes are attached to the first tree, and those left to the others. -/
theorem attachAll_cons (tree : SyntaxTree) (trees : List SyntaxTree) (lexemes : List Lexeme) :
    attachAll (tree :: trees) lexemes =
      ((tree.attach lexemes).1 :: (attachAll trees (tree.attach lexemes).2).1,
        (attachAll trees (tree.attach lexemes).2).2) := by
  rw [attachAll]

/-- Lexemes are attached to trees in two parts to the first part and then to the second. -/
theorem attachAll_append (trees others : List SyntaxTree) (lexemes : List Lexeme) :
    attachAll (trees ++ others) lexemes =
      ((attachAll trees lexemes).1 ++ (attachAll others (attachAll trees lexemes).2).1,
        (attachAll others (attachAll trees lexemes).2).2) := by
  induction trees generalizing lexemes with
  | nil => rfl
  | cons tree trees ih =>
    rw [List.cons_append, attachAll_cons, attachAll_cons, ih, List.cons_append]

/-- Attaching lexemes keeps the trees in number. -/
theorem length_attachAll (trees : List SyntaxTree) (lexemes : List Lexeme) :
    (attachAll trees lexemes).1.length = trees.length := by
  induction trees generalizing lexemes with
  | nil => rfl
  | cons tree trees ih =>
    rw [attachAll_cons, List.length_cons, List.length_cons, ih]

/-- Attaching lexemes to some trees leaves some trees. -/
theorem attachAll_ne_nil {trees : List SyntaxTree} (nonempty : trees ≠ [])
    (lexemes : List Lexeme) : (attachAll trees lexemes).1 ≠ [] := by
  rw [← List.length_pos_iff, length_attachAll, List.length_pos_iff]
  exact nonempty

/-- Whether attaching lexemes to a tree is attaching them to its leaves. -/
def AttachesByLeaves (tree : SyntaxTree) : Prop :=
  ∀ lexemes, (tree.attach lexemes).1.leaves = (attachAll tree.leaves lexemes).1 ∧
    (tree.attach lexemes).2 = (attachAll tree.leaves lexemes).2

/-- Lexemes are attached to trees by attaching them to the leaves of all of them. -/
theorem attachAll_flatMap_leaves {trees : List SyntaxTree}
    (each : ∀ tree ∈ trees, tree.AttachesByLeaves) (lexemes : List Lexeme) :
    (attachAll trees lexemes).1.flatMap leaves = (attachAll (trees.flatMap leaves) lexemes).1 ∧
      (attachAll trees lexemes).2 = (attachAll (trees.flatMap leaves) lexemes).2 := by
  induction trees generalizing lexemes with
  | nil => exact ⟨rfl, rfl⟩
  | cons tree trees ih =>
    obtain ⟨first, rest⟩ := each tree List.mem_cons_self lexemes
    obtain ⟨others, final⟩ :=
      ih (fun other held => each other (List.mem_cons_of_mem _ held)) (tree.attach lexemes).2
    rw [List.flatMap_cons, attachAll_append, ← first, ← rest, ← others, ← final, attachAll_cons,
      List.flatMap_cons]
    exact ⟨rfl, rfl⟩

/-- Lexemes are attached to a tree by attaching them to its leaves. -/
theorem attachesByLeaves (tree : SyntaxTree) : tree.AttachesByLeaves := by
  induction tree using induction with
  | node symbol lexeme children ih =>
    intro lexemes
    by_cases inner : children = []
    · subst inner
      rw [leaves_nil, attachAll_cons]
      cases lexemes with
      | nil => exact ⟨leaves_nil symbol lexeme, rfl⟩
      | cons next lexemes =>
        rw [attach]
        by_cases fits : next.kind = symbol
        · rw [if_pos fits]
          exact ⟨leaves_nil symbol (some next), rfl⟩
        · rw [if_neg fits]
          exact ⟨leaves_nil symbol lexeme, rfl⟩
    · rw [attach_node symbol lexeme inner, leaves_node symbol lexeme inner,
        leaves_node symbol lexeme (attachAll_ne_nil inner lexemes)]
      exact attachAll_flatMap_leaves ih lexemes

/-- Attaching lexemes to leaves keeps their symbols. -/
theorem attachAll_map_leaf_symbols (form : List String) (lexemes : List Lexeme) :
    (attachAll (form.map leaf) lexemes).1.map symbol = form := by
  induction form generalizing lexemes with
  | nil => rfl
  | cons name form ih =>
    have isName : ((leaf name).attach lexemes).1.symbol = name := by
      cases lexemes with
      | nil => rfl
      | cons next lexemes =>
        rw [leaf, attach]
        by_cases fits : next.kind = name
        · rw [if_pos fits]
          rfl
        · rw [if_neg fits]
          rfl
    rw [List.map_cons, attachAll_cons, List.map_cons, ih, isName]

/-- Lexemes whose kinds are among the symbols of leaves, in order, are all attached, in order. -/
theorem attachAll_map_leaf_lexemes {form : List String} {lexemes : List Lexeme}
    (among : (lexemes.map Lexeme.kind).Sublist form) :
    (attachAll (form.map leaf) lexemes).1.filterMap lexeme? = lexemes := by
  induction form generalizing lexemes with
  | nil =>
    rw [List.map_eq_nil_iff.mp (List.sublist_nil.mp among)]
    rfl
  | cons name form ih =>
    cases lexemes with
    | nil => exact ih (List.nil_sublist form)
    | cons next lexemes =>
      rw [List.map_cons] at among
      by_cases fits : next.kind = name
      · have later : (lexemes.map Lexeme.kind).Sublist form := by
          rw [fits] at among
          exact among.of_cons_cons
        rw [List.map_cons, attachAll_cons, leaf, attach, if_pos fits]
        exact congrArg (next :: ·) (ih later)
      · have later : ((next :: lexemes).map Lexeme.kind).Sublist form :=
          List.Sublist.of_cons_of_ne fits among
        rw [List.map_cons, attachAll_cons, leaf, attach, if_neg fits]
        exact ih later

/-- The leaves of a parse tree are bare. -/
theorem IsParseTree.leaves_eq_map_leaf {grammar : Grammar} (wellFormed : grammar.WellFormed)
    {tree : SyntaxTree} (parsed : tree.IsParseTree grammar) :
    tree.leaves = (tree.leaves.map symbol).map leaf := by
  induction parsed with
  | terminal => rfl
  | expanded declared _ ih =>
    rw [leaves_node _ _ (children_ne_nil wellFormed declared), List.map_flatMap, List.map_flatMap]
    exact List.flatMap_congr ih

/-- Attaching lexemes to a parse tree keeps the symbols of its leaves. When the kinds of the lexemes
are among those symbols, in order, the leaves carry all lexemes, in order. -/
theorem IsParseTree.attachLexemes_leaves {grammar : Grammar} (wellFormed : grammar.WellFormed)
    {tree : SyntaxTree} (parsed : tree.IsParseTree grammar) (lexemes : List Lexeme) :
    (tree.attachLexemes lexemes).1.leaves.map symbol = tree.leaves.map symbol ∧
      ((lexemes.map Lexeme.kind).Sublist (tree.leaves.map symbol) →
        (tree.attachLexemes lexemes).1.leaves.filterMap lexeme? = lexemes) := by
  have isLeaves : (tree.attachLexemes lexemes).1.leaves =
      (attachAll ((tree.leaves.map symbol).map leaf) lexemes).1 := by
    rw [← parsed.leaves_eq_map_leaf wellFormed]
    exact (tree.attachesByLeaves lexemes).1
  rw [isLeaves]
  exact ⟨attachAll_map_leaf_symbols _ lexemes, attachAll_map_leaf_lexemes⟩

/-! ## Trees without their lexemes -/

mutual

/-- The tree with no lexeme attached. -/
def erase : SyntaxTree → SyntaxTree
  | .node symbol _ children => .node symbol none (eraseAll children)

/-- The trees with no lexeme attached. -/
def eraseAll : List SyntaxTree → List SyntaxTree
  | [] => []
  | tree :: trees => erase tree :: eraseAll trees

end

/-- Attaching lexemes to trees changes nothing but lexemes. -/
theorem eraseAll_attachAll {trees : List SyntaxTree}
    (kept : ∀ tree ∈ trees, ∀ lexemes, (tree.attach lexemes).1.erase = tree.erase)
    (lexemes : List Lexeme) : eraseAll (attachAll trees lexemes).1 = eraseAll trees := by
  induction trees generalizing lexemes with
  | nil => rfl
  | cons tree trees ih =>
    have first : (tree.attach lexemes).1.erase = tree.erase :=
      kept tree List.mem_cons_self lexemes
    have others := ih (fun other held => kept other (List.mem_cons_of_mem _ held))
      (tree.attach lexemes).2
    rw [attachAll, eraseAll, eraseAll, first, others]

/-- Attaching lexemes to a tree changes nothing but lexemes. -/
theorem erase_attach (tree : SyntaxTree) (lexemes : List Lexeme) :
    (tree.attach lexemes).1.erase = tree.erase := by
  induction tree using induction generalizing lexemes with
  | node symbol lexeme children ih =>
    by_cases inner : children = []
    · subst inner
      cases lexemes with
      | nil => rw [attach]
      | cons next lexemes =>
        rw [attach]
        split <;> rfl
    · rw [attach_node symbol lexeme inner, erase, erase, eraseAll_attachAll ih]

end Precedence.SyntaxTree
