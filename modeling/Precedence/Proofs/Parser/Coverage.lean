import Precedence.Proofs.Parser.Soundness
import Precedence.Proofs.SyntaxTree.Expansion

/-!
# What a tree covers

Every element that a run reads becomes a leaf, and so does every empty symbol that it inserts. Such
a leaf may be a symbol that can be expanded, if the empty symbol heads a production. The
productions reduced are then too few to give a tree: beside the symbols of their own bodies they
would have to expand the leaf. So whenever a run ends with a derivation that has a tree, the leaves
of the tree are what the run has read with empty symbols between.
-/

namespace Precedence

namespace Grammar

/-- Leaves are a word with empty symbols put between its symbols. -/
structure Padded (grammar : Grammar) (word leaves : List String) : Prop where
  /-- The symbols of the word are among the leaves, in order. -/
  sublist : word.Sublist leaves
  /-- What the leaves have besides are empty symbols. -/
  same : grammar.withoutEmpty leaves = grammar.withoutEmpty word

variable {grammar : Grammar}

/-- A word is padded with nothing. -/
theorem padded_refl (grammar : Grammar) (word : List String) : grammar.Padded word word where
  sublist := List.Sublist.refl word
  same := rfl

/-- Words are padded one after another. -/
theorem Padded.append {word other leaves later : List String}
    (first : grammar.Padded word leaves) (second : grammar.Padded other later) :
    grammar.Padded (word ++ other) (leaves ++ later) where
  sublist := first.sublist.append second.sublist
  same := by
    have isFirst := first.same
    have isSecond := second.same
    rw [withoutEmpty, withoutEmpty] at isFirst isSecond ⊢
    rw [List.filter_append, List.filter_append, isFirst, isSecond]

end Grammar

namespace Parser

variable {parser : Parser} {σ : Type} [Supply σ]

/-- The leaf that a step puts on the stack, if any: the kind of the element that it reads, or the
empty symbol that it inserts. -/
def leafBy (parser : Parser) (configuration : Configuration σ) : List String :=
  match parser.nextMove configuration with
  | .read => [configuration.lookahead.kind]
  | .insert empty => [empty]
  | .reduce | .reject => []

/-- The leaves that a run puts on the stack within so many steps, in order. -/
def leavesStacked (parser : Parser) : Nat → Progress σ → List String
  | _, .finished _ _ => []
  | 0, .running _ => []
  | steps + 1, .running configuration =>
    parser.leafBy configuration ++ parser.leavesStacked steps (parser.step configuration)

omit [Supply σ] in
/-- The leaf that a step puts on the stack is the element that it reads, or an empty symbol. -/
theorem padded_leafBy (accepted : parser.Accepted) (configuration : Configuration σ) :
    parser.grammar.Padded ((parser.readBy configuration).map Element.kind)
      (parser.leafBy configuration) := by
  rw [readBy, leafBy]
  cases isMove : parser.nextMove configuration with
  | read =>
    rw [if_pos rfl]
    exact Grammar.padded_refl _ _
  | insert empty =>
    obtain ⟨declared, _⟩ := shifts_of_move_insert accepted isMove
    rw [if_neg Move.noConfusion]
    refine ⟨List.nil_sublist _, ?_⟩
    simp [Grammar.withoutEmpty, Grammar.isEmptySymbol, declared]
  | reduce =>
    rw [if_neg Move.noConfusion]
    exact Grammar.padded_refl _ _
  | reject =>
    rw [if_neg Move.noConfusion]
    exact Grammar.padded_refl _ _

/-- The leaves that a run puts on the stack are what it reads, with empty symbols between. -/
theorem padded_leavesStacked (accepted : parser.Accepted) (steps : Nat) (progress : Progress σ) :
    parser.grammar.Padded ((parser.elementsRead steps progress).map Element.kind)
      (parser.leavesStacked steps progress) := by
  induction steps generalizing progress with
  | zero => cases progress <;> exact Grammar.padded_refl _ _
  | succ steps ih =>
    cases progress with
    | finished => exact Grammar.padded_refl _ _
    | running configuration =>
      rw [elementsRead, leavesStacked, List.map_append]
      exact (padded_leafBy accepted configuration).append (ih _)

omit [Supply σ] in
/-- A leaf that a step puts on the stack is a terminal or the empty symbol. -/
theorem mem_leafBy (accepted : parser.Accepted) {configuration : Configuration σ} {leaf : String}
    (stacked : leaf ∈ parser.leafBy configuration) :
    leaf ∈ parser.grammar.terminals ∨ parser.grammar.emptySymbol = some leaf := by
  rw [leafBy] at stacked
  cases isMove : parser.nextMove configuration with
  | read =>
    simp only [isMove, List.mem_singleton] at stacked
    subst stacked
    exact ((move_eq_read_iff accepted).mp isMove).2
  | insert empty =>
    simp only [isMove, List.mem_singleton] at stacked
    subst stacked
    exact Or.inr (shifts_of_move_insert accepted isMove).1
  | reduce => simp [isMove] at stacked
  | reject => simp [isMove] at stacked

/-- The leaves that a run puts on the stack are terminals and empty symbols. -/
theorem mem_leavesStacked (accepted : parser.Accepted) {steps : Nat} {progress : Progress σ}
    {leaf : String} (stacked : leaf ∈ parser.leavesStacked steps progress) :
    leaf ∈ parser.grammar.terminals ∨ parser.grammar.emptySymbol = some leaf := by
  induction steps generalizing progress with
  | zero => cases progress <;> cases stacked
  | succ steps ih =>
    cases progress with
    | finished => cases stacked
    | running configuration =>
      rw [leavesStacked, List.mem_append] at stacked
      rcases stacked with now | later
      · exact mem_leafBy accepted now
      · exact ih later

/-- The symbols that can be expanded are balanced: those on the stack and in the bodies reduced are
as many as the productions reduced and the leaves that can be expanded. Where no leaf can be, the
productions reduced are a derivation. -/
structure Balanced (parser : Parser) (configuration : Configuration σ) (leaves : List String) :
    Prop where
  /-- The stack is a stack of the parser. -/
  stacked : parser.Stacked configuration.stack
  /-- What is opened is reduced or a leaf. -/
  balance : parser.grammar.expandable (form configuration.stack) +
      parser.grammar.opened configuration.derivation =
    configuration.derivation.length + parser.grammar.expandable leaves
  /-- The productions reduced derive leaves that cannot be expanded. -/
  derived : parser.grammar.IsTerminalForm leaves →
    parser.grammar.RightmostDerivation (form configuration.stack) configuration.derivation leaves

omit [Supply σ] in
/-- A leaf on top of the stack keeps the balance. -/
theorem Balanced.push {configuration next : Configuration σ} {leaves : List String}
    {element : Element} (balanced : parser.Balanced configuration leaves)
    (stacked : parser.Stacked next.stack) (isStack : next.stack = element :: configuration.stack)
    (isDerivation : next.derivation = configuration.derivation) :
    parser.Balanced next (leaves ++ [element.kind]) := by
  refine ⟨stacked, ?_, ?_⟩
  · have before := balanced.balance
    rw [isStack, isDerivation, form_cons, Grammar.expandable_append, Grammar.expandable_append]
    omega
  · intro terminal
    have earlier : parser.grammar.IsTerminalForm leaves := fun symbol held =>
      terminal symbol (List.mem_append_left _ held)
    have alone : parser.grammar.IsTerminalForm [element.kind] := fun symbol held =>
      terminal symbol (List.mem_append_right _ held)
    rw [isStack, isDerivation, form_cons]
    exact (balanced.derived earlier).append_right alone

/-- A transition keeps the balance with the leaf that it puts on the stack, if any. -/
theorem Balanced.transition (accepted : parser.Accepted) {configuration next : Configuration σ}
    {leaves : List String} (balanced : parser.Balanced configuration leaves)
    (transition : parser.Transition configuration next) :
    parser.Balanced next (leaves ++ parser.leafBy configuration) := by
  have stacked := balanced.stacked.transition accepted transition
  rw [leafBy]
  cases transition with
  | read isMove _ =>
    rw [isMove]
    exact balanced.push stacked rfl rfl
  | @insert empty isMove _ =>
    rw [isMove]
    exact (balanced.push stacked rfl rfl :
      parser.Balanced _ (leaves ++ [Element.kind (.symbol empty)]))
  | @reduce production beneath isMove found =>
    have goesOn : parser.nextMove configuration ≠ .reject := by simp [isMove]
    have occur := balanced.stacked.occurs accepted goesOn
    obtain ⟨declared, _, isForm, _⟩ := findHandle_sound accepted occur found
    have heads := accepted.isNonTerminal_head declared
    simp only [isMove, List.append_nil]
    refine ⟨stacked, ?_, ?_⟩
    · -- The head is opened on the stack and reduced as a production.
      have before := balanced.balance
      rw [isForm, Grammar.expandable_append] at before
      rw [form_cons, Grammar.expandable_append, Grammar.opened_cons, List.length_cons]
      have one : parser.grammar.expandable [Element.kind (.symbol production.head)] = 1 :=
        Grammar.expandable_singleton heads
      omega
    · intro terminal
      exact .step (rightmostStep_of_findHandle accepted occur found) (balanced.derived terminal)

/-- A run that ends with a derivation keeps the balance with the leaves that it puts on the stack,
to the configuration that is accepted. -/
theorem Balanced.run (accepted : parser.Accepted) {steps : Nat} {configuration : Configuration σ}
    {leaves : List String} {derivation : Derivation} {rest : σ}
    (balanced : parser.Balanced configuration leaves)
    (ended : parser.run steps (parser.settle configuration) = some (.ok derivation, rest)) :
    ∃ last : Configuration σ, parser.Balanced last
        (leaves ++ parser.leavesStacked steps (parser.settle configuration)) ∧
      parser.accepts last.stack last.lookahead = true ∧ last.derivation = derivation := by
  induction steps generalizing configuration leaves with
  | zero =>
    rcases run_ok_cases ended with ⟨isAccepted, isDerivation, _⟩ | ⟨_, _, more, _⟩
    · rw [settle_of_accepts isAccepted, leavesStacked, List.append_nil]
      exact ⟨configuration, balanced, isAccepted, isDerivation⟩
    · cases more
  | succ steps ih =>
    rcases run_ok_cases ended with
      ⟨isAccepted, isDerivation, _⟩ | ⟨fewer, next, more, unaccepted, transition, later⟩
    · rw [settle_of_accepts isAccepted, leavesStacked, List.append_nil]
      exact ⟨configuration, balanced, isAccepted, isDerivation⟩
    · cases more
      have stepped := balanced.transition accepted transition
      obtain ⟨last, reached, isLast⟩ := ih stepped later
      rw [List.append_assoc] at reached
      rw [settle_of_not_accepts unaccepted, leavesStacked, transition.step_eq]
      exact ⟨last, reached, isLast⟩

/-- The start symbol and the symbols opened by a run that ends with a derivation are the productions
reduced and the leaves that can be expanded; and where no leaf can be, the productions derive the
leaves. -/
theorem balance_of_run (accepted : parser.Accepted) {input rest : σ} {steps : Nat}
    {derivation : Derivation}
    (ended : parser.run steps (parser.initial input) = some (.ok derivation, rest)) :
    1 + parser.grammar.opened derivation =
        derivation.length +
          parser.grammar.expandable (parser.leavesStacked steps (parser.initial input)) ∧
      (parser.grammar.IsTerminalForm (parser.leavesStacked steps (parser.initial input)) →
        parser.grammar.RightmostDerivation [parser.start] derivation
          (parser.leavesStacked steps (parser.initial input))) := by
  obtain ⟨lookahead, remaining, _, pulled, _⟩ := leads_of_initial ended
  have opened : parser.Balanced (opening lookahead remaining) [] :=
    ⟨stacked_nil parser, rfl, fun _ => .refl []⟩
  rw [initial_eq pulled] at ended ⊢
  obtain ⟨last, balanced, isAccepted, rfl⟩ := opened.run accepted ended
  obtain ⟨isStart, _⟩ := accepts_iff.mp isAccepted
  have balance := balanced.balance
  have derived := balanced.derived
  rw [isStart, List.nil_append] at balance derived
  rw [Grammar.expandable_singleton accepted.start_isNonTerminal] at balance
  exact ⟨balance, derived⟩

/-- The derivation that a run ends with has a tree exactly when none of the leaves put on the stack
can be expanded: such a leaf would need a production of its own. The tree is a parse tree, and its
leaves are those put on the stack. -/
theorem ofDerivation_iff_of_run (accepted : parser.Accepted) {input rest : σ} {steps : Nat}
    {derivation : Derivation}
    (ended : parser.run steps (parser.initial input) = some (.ok derivation, rest)) :
    ((∃ tree, SyntaxTree.ofDerivation parser.grammar derivation = .ok tree) ↔
      parser.grammar.IsTerminalForm (parser.leavesStacked steps (parser.initial input))) ∧
    ∀ tree, SyntaxTree.ofDerivation parser.grammar derivation = .ok tree →
      tree.IsParseTree parser.grammar ∧
        tree.leaves.map SyntaxTree.symbol = parser.leavesStacked steps (parser.initial input) := by
  obtain ⟨balance, derived⟩ := balance_of_run accepted ended
  -- A tree uses up a production for each symbol opened, so it leaves none for a leaf.
  have terminal_of_built : ∀ tree, SyntaxTree.ofDerivation parser.grammar derivation = .ok tree →
      parser.grammar.IsTerminalForm (parser.leavesStacked steps (parser.initial input)) := by
    intro tree built
    have isLength := SyntaxTree.length_of_ofDerivation built
    apply Grammar.expandable_eq_zero_iff.mp
    omega
  have built_of_terminal : parser.grammar.IsTerminalForm
        (parser.leavesStacked steps (parser.initial input)) →
      ∃ tree, SyntaxTree.ofDerivation parser.grammar derivation = .ok tree ∧
        tree.IsParseTree parser.grammar ∧
        tree.leaves.map SyntaxTree.symbol =
          parser.leavesStacked steps (parser.initial input) := by
    intro terminal
    obtain ⟨tree, isSymbol, parsed, isDerivation, isLeaves⟩ :=
      SyntaxTree.exists_tree_of_derivation accepted.toWellFormed (derived terminal) terminal
    have built := ofDerivation_of_start accepted parsed isSymbol
    rw [isDerivation] at built
    exact ⟨tree, built, parsed, isLeaves⟩
  refine ⟨⟨fun ⟨tree, built⟩ => terminal_of_built tree built, fun terminal => ?_⟩,
    fun tree built => ?_⟩
  · obtain ⟨tree, built, _⟩ := built_of_terminal terminal
    exact ⟨tree, built⟩
  · obtain ⟨other, rebuilt, isTree⟩ := built_of_terminal (terminal_of_built tree built)
    rw [built] at rebuilt
    cases rebuilt
    exact isTree

/-- When a run ends with a derivation that has a tree, the tree is a parse tree whose leaves are
what the run has read, with empty symbols between; the end marker came next, and was not read
before. -/
theorem leaves_of_run (accepted : parser.Accepted) {input rest : σ} {steps : Nat}
    {derivation : Derivation} {tree : SyntaxTree}
    (ended : parser.run steps (parser.initial input) = some (.ok derivation, rest))
    (built : SyntaxTree.ofDerivation parser.grammar derivation = .ok tree) :
    ∃ lookahead remaining last elements,
      Supply.next input = (.ok lookahead, remaining) ∧
        Supply.Reads lookahead remaining elements last rest ∧
        (∀ element ∈ elements, element.kind ≠ parser.endMarker) ∧
        last.kind = parser.endMarker ∧ tree.IsParseTree parser.grammar ∧
        parser.grammar.Padded (elements.map Element.kind) (tree.leaves.map SyntaxTree.symbol) := by
  obtain ⟨_, ofBuilt⟩ := ofDerivation_iff_of_run accepted ended
  obtain ⟨parsed, isLeaves⟩ := ofBuilt tree built
  have padded := padded_leavesStacked accepted steps (parser.initial input)
  obtain ⟨lookahead, remaining, last, pulled, leads, isAccepted, rfl, rfl⟩ :=
    leads_of_initial ended
  obtain ⟨_, isEnd⟩ := accepts_iff.mp isAccepted
  exact ⟨lookahead, remaining, _, _, pulled, leads.reads, leads.ne_endMarker accepted, isEnd,
    parsed, isLeaves.symm ▸ padded⟩

end Parser

end Precedence
