import Precedence.Proofs.Parser.Bundled
import Precedence.Proofs.Parser.Stack
import Precedence.Proofs.SyntaxTree.Correspondence
import Precedence.Proofs.SyntaxTree.Replay

/-!
# Soundness of parsing

The productions reduced so far are always a rightmost derivation from the kinds on the stack to the
leaves stacked so far: the elements read, and the empty symbols put between them. A reduction puts
a step before the derivation; reading an element or inserting the empty symbol adds a leaf behind
it. So a run that ends with a derivation has derived what it read, whatever conflicts the grammar
has and whichever body was chosen.
-/

namespace Precedence.Parser

variable {parser : Parser} {σ : Type} [Supply σ]

/-- The productions reduced lead from the kinds on the stack to leaves that cannot be expanded. -/
structure Derived (parser : Parser) (configuration : Configuration σ) (leaves : List String) :
    Prop where
  /-- The stack is a stack of the parser. -/
  stacked : parser.Stacked configuration.stack
  /-- The productions reduced are a derivation. -/
  derived : parser.grammar.RightmostDerivation (form configuration.stack)
    configuration.derivation leaves
  /-- The leaves cannot be expanded. -/
  terminal : parser.grammar.IsTerminalForm leaves

/-- Forms that cannot be expanded are one when joined. -/
theorem isTerminalForm_append {grammar : Grammar} {form : List String} {symbol : String}
    (terminal : grammar.IsTerminalForm form) (unexpanded : grammar.isNonTerminal symbol = false) :
    grammar.IsTerminalForm (form ++ [symbol]) := by
  intro other held
  rcases List.mem_append.mp held with held | held
  · exact terminal other held
  · exact List.mem_singleton.mp held ▸ unexpanded

omit [Supply σ] in
/-- What a reduction leaves on the stack leads to what was on it by the production reduced. -/
theorem rightmostStep_of_findHandle (accepted : parser.Accepted) {stack beneath : List Element}
    {production : Production} (occur : ∀ element ∈ stack, parser.grammar.Occurs element.kind)
    (found : parser.findHandle stack (min stack.length parser.longestBody) =
      some (production, beneath)) :
    parser.grammar.RightmostStep production (form (.symbol production.head :: beneath))
      (form stack) := by
  obtain ⟨declared, _, isForm, _⟩ := findHandle_sound accepted occur found
  rw [form_cons, isForm]
  have expanded := Grammar.RightmostStep.expand (form beneath) [] declared
    parser.grammar.isTerminalForm_nil
  rwa [List.append_nil] at expanded

omit [Supply σ] in
/-- A leaf on top of the stack stands behind the derivation. -/
theorem Derived.push {configuration next : Configuration σ} {leaves : List String}
    {element : Element} (derived : parser.Derived configuration leaves)
    (stacked : parser.Stacked next.stack) (isStack : next.stack = element :: configuration.stack)
    (isDerivation : next.derivation = configuration.derivation)
    (unexpanded : parser.grammar.isNonTerminal element.kind = false) :
    parser.Derived next (leaves ++ [element.kind]) := by
  have alone : parser.grammar.IsTerminalForm [element.kind] := fun _ held =>
    List.mem_singleton.mp held ▸ unexpanded
  refine ⟨stacked, ?_, isTerminalForm_append derived.terminal unexpanded⟩
  rw [isStack, isDerivation, form_cons]
  exact derived.derived.append_right alone

/-- A transition keeps the derivation, and adds the element that it reads as a leaf, or an empty
symbol. -/
theorem Derived.transition (accepted : parser.Accepted)
    (unexpanded : ∀ empty ∈ parser.grammar.emptySymbol,
      parser.grammar.isNonTerminal empty = false)
    {configuration next : Configuration σ} {leaves : List String}
    (derived : parser.Derived configuration leaves)
    (transition : parser.Transition configuration next) :
    ∃ added, parser.Derived next (leaves ++ added) ∧
      parser.grammar.withoutEmpty added =
        parser.grammar.withoutEmpty ((parser.readBy configuration).map Element.kind) := by
  have stacked := derived.stacked.transition accepted transition
  rw [readBy]
  cases transition with
  | read isMove _ =>
    obtain ⟨_, listed⟩ := (move_eq_read_iff accepted).mp isMove
    have isLeaf : parser.grammar.isNonTerminal configuration.lookahead.kind = false := by
      rcases listed with terminal | empty
      · exact (accepted.mem_terminals_iff.mp terminal).2.1
      · exact unexpanded _ empty
    rw [if_pos isMove]
    exact ⟨_, derived.push stacked rfl rfl isLeaf, rfl⟩
  | @insert empty isMove _ =>
    obtain ⟨declared, _⟩ := shifts_of_move_insert accepted isMove
    rw [if_neg (by simp [isMove])]
    refine ⟨_, derived.push stacked rfl rfl (unexpanded empty declared), ?_⟩
    simp [Grammar.withoutEmpty, Grammar.isEmptySymbol, Element.kind, declared]
  | @reduce production beneath isMove found =>
    have goesOn : parser.nextMove configuration ≠ .reject := by simp [isMove]
    have occur := derived.stacked.occurs accepted goesOn
    rw [if_neg (by simp [isMove])]
    refine ⟨[], ⟨stacked, ?_, by simpa using derived.terminal⟩, rfl⟩
    rw [List.append_nil]
    exact .step (rightmostStep_of_findHandle accepted occur found) derived.derived

/-- Transitions keep the derivation, and add the elements that they read as leaves, with empty
symbols between them. -/
theorem Derived.leads (accepted : parser.Accepted)
    (unexpanded : ∀ empty ∈ parser.grammar.emptySymbol,
      parser.grammar.isNonTerminal empty = false)
    {configuration last : Configuration σ} {leaves : List String} {elements : List Element}
    (derived : parser.Derived configuration leaves)
    (leads : parser.Leads configuration elements last) :
    ∃ added, parser.Derived last (leaves ++ added) ∧
      parser.grammar.withoutEmpty added =
        parser.grammar.withoutEmpty (elements.map Element.kind) := by
  induction leads generalizing leaves with
  | refl => exact ⟨[], by simpa using derived, rfl⟩
  | step _ transition _ ih =>
    obtain ⟨first, stepped, isFirst⟩ := derived.transition accepted unexpanded transition
    obtain ⟨others, reached, isOthers⟩ := ih stepped
    refine ⟨first ++ others, by simpa using reached, ?_⟩
    rw [Grammar.withoutEmpty] at isFirst isOthers ⊢
    rw [List.filter_append, isFirst, isOthers, List.map_append, Grammar.withoutEmpty,
      Grammar.withoutEmpty, Grammar.withoutEmpty, List.filter_append]

/-- A run that ends with a derivation has read the elements pulled, but for the last one, which is
the only end marker, and the derivation leads from the start symbol to those elements with empty
symbols between them. -/
theorem derivation_of_run (accepted : parser.Accepted)
    (unexpanded : ∀ empty ∈ parser.grammar.emptySymbol,
      parser.grammar.isNonTerminal empty = false)
    {input rest : σ} {steps : Nat} {derivation : Derivation}
    (ended : parser.run steps (parser.initial input) = some (.ok derivation, rest)) :
    (∃ leaves, parser.grammar.RightmostDerivation [parser.start] derivation leaves ∧
      parser.grammar.IsTerminalForm leaves ∧
      parser.grammar.withoutEmpty leaves = parser.grammar.withoutEmpty
        ((parser.elementsRead steps (parser.initial input)).map Element.kind)) ∧
    (∀ element ∈ parser.elementsRead steps (parser.initial input),
      element.kind ≠ parser.endMarker) ∧
    ∃ lookahead : Element, lookahead.kind = parser.endMarker ∧
      Supply.pulls ((parser.elementsRead steps (parser.initial input)).length + 1) input =
        ((parser.elementsRead steps (parser.initial input) ++ [lookahead]).map .ok, rest) := by
  obtain ⟨lookahead, remaining, last, pulled, leads, isAccepted, rfl, rfl⟩ :=
    leads_of_initial ended
  have opened : parser.Derived (opening lookahead remaining) [] :=
    ⟨stacked_nil parser, .refl [], parser.grammar.isTerminalForm_nil⟩
  obtain ⟨leaves, derived, isLeaves⟩ := opened.leads accepted unexpanded leads
  obtain ⟨isStart, isEnd⟩ := accepts_iff.mp isAccepted
  exact ⟨⟨leaves, isStart ▸ derived.derived, derived.terminal, isLeaves⟩,
    leads.ne_endMarker accepted, last.lookahead, isEnd, leads.reads.pulls pulled⟩

/-- A parse that gives a derivation is a run that ends with it. -/
theorem run_of_parse {size : Nat} {input rest : σ} {derivation : Derivation}
    (parsed : parser.parse size input = (.ok derivation, rest)) :
    parser.run (parser.stepBound size) (parser.initial input) = some (.ok derivation, rest) := by
  rw [parse] at parsed
  cases ended : parser.run (parser.stepBound size) (parser.initial input) with
  | none =>
    rw [ended] at parsed
    cases parsed
  | some outcome =>
    rw [ended] at parsed
    exact congrArg some parsed

/-- A parse of symbols that gives a derivation gives one of those symbols. -/
theorem derives_of_parse (accepted : parser.Accepted)
    (unexpanded : ∀ empty ∈ parser.grammar.emptySymbol,
      parser.grammar.isNonTerminal empty = false)
    {word : List String} (unended : parser.endMarker ∉ word) {size : Nat}
    {derivation : Derivation}
    (parsed : (parser.parse size (SymbolSupply.mk word parser.endMarker)).1 = .ok derivation) :
    parser.grammar.Derives parser.start derivation (parser.grammar.withoutEmpty word) := by
  have ended := run_of_parse (Prod.ext parsed rfl)
  obtain ⟨⟨leaves, derived, terminal, isRead⟩, different, last, isEnd, pulled⟩ :=
    derivation_of_run accepted unexpanded ended
  obtain ⟨lookahead, rest, nextPulled, read⟩ := Supply.reads_of_pulls pulled
  have isWord := Supply.elements_of_reads_symbols unended nextPulled read different isEnd
  rw [isWord, Supply.map_kind_symbol] at isRead
  exact ⟨leaves, derived, terminal, isRead⟩

/-- The start symbol is expanded by a derivation that leads to a form that cannot be. -/
theorem derivation_ne_nil {grammar : Grammar} {start : String} {derivation : Derivation}
    {leaves : List String} (startHeads : grammar.isNonTerminal start = true)
    (derived : grammar.RightmostDerivation [start] derivation leaves)
    (terminal : grammar.IsTerminalForm leaves) : derivation ≠ [] := by
  rintro rfl
  cases derived
  have unexpanded := terminal start List.mem_cons_self
  rw [startHeads] at unexpanded
  cases unexpanded

/-- The derivation of a parse tree of the start symbol is replayed to the tree. -/
theorem ofDerivation_of_start (accepted : parser.Accepted) {tree : SyntaxTree}
    (parsed : tree.IsParseTree parser.grammar) (isStart : tree.symbol = parser.start) :
    SyntaxTree.ofDerivation parser.grammar tree.derivation = .ok tree := by
  have heads : parser.grammar.isNonTerminal tree.symbol = true :=
    isStart ▸ accepted.start_isNonTerminal
  exact SyntaxTree.ofDerivation_derivation accepted.toWellFormed parsed
    (parsed.inner accepted.toWellFormed heads)

/-- A run that ends with a derivation is sound: the derivation is a rightmost derivation from the
start symbol by productions of the grammar, it has a tree whose nodes spell productions, and the
frontier of the tree is what the run has read, all that was pulled but the end marker. -/
theorem run_sound {ruleset : Ruleset} (made : ofRuleset ruleset = .ok parser)
    (unexpanded : ∀ empty ∈ ruleset.empty, parser.grammar.isNonTerminal empty = false)
    {input rest : σ} {steps : Nat} {derivation : Derivation}
    (ended : parser.run steps (parser.initial input) = some (.ok derivation, rest)) :
    derivation ≠ [] ∧ derivation ⊆ parser.grammar.productions ∧
    (∃ leaves, parser.grammar.RightmostDerivation [ruleset.start] derivation leaves ∧
      parser.grammar.IsTerminalForm leaves) ∧
    (∃ tree, SyntaxTree.ofDerivation parser.grammar derivation = .ok tree ∧
      tree.symbol = ruleset.start ∧
      (∀ inner ∈ tree.preOrder, inner.isLeaf = false →
        inner.production ∈ parser.grammar.productions) ∧
      tree.frontier parser.grammar = parser.grammar.withoutEmpty
        ((parser.elementsRead steps (parser.initial input)).map Element.kind)) ∧
    ∃ lookahead : Element, lookahead.kind = ruleset.endMarker ∧
      Supply.pulls ((parser.elementsRead steps (parser.initial input)).length + 1) input =
        ((parser.elementsRead steps (parser.initial input) ++ [lookahead]).map .ok, rest) := by
  obtain ⟨accepted, _, isEmpty, isStart, isEnd, _⟩ := accepted_of_ruleset made
  rw [← isEmpty] at unexpanded
  obtain ⟨⟨leaves, derived, terminal, isRead⟩, _, pulled⟩ :=
    derivation_of_run accepted unexpanded ended
  obtain ⟨tree, isSymbol, parsed, rfl, isLeaves⟩ :=
    SyntaxTree.exists_tree_of_derivation accepted.toWellFormed derived terminal
  rw [← isStart, ← isEnd]
  refine ⟨derivation_ne_nil accepted.start_isNonTerminal derived terminal,
    parsed.derivation_subset accepted.toWellFormed, ⟨leaves, derived, terminal⟩,
    ⟨tree, ofDerivation_of_start accepted parsed isSymbol, isSymbol, parsed.production_mem, ?_⟩,
    pulled⟩
  rw [← isRead, ← isLeaves]
  rfl

/-- A run that inserts empty symbols and reads one is sound. -/
theorem run_sound_arithmetic :
    let input := SymbolSupply.mk ["v", "ε", "+", "v"] "$"
    let derivation : Derivation := [
      ⟨"E", ["M", "F"]⟩, ⟨"F", ["+", "M", "F"]⟩, ⟨"F", ["ε"]⟩, ⟨"M", ["P", "N"]⟩,
      ⟨"N", ["ε"]⟩, ⟨"P", ["v"]⟩, ⟨"M", ["P", "N"]⟩, ⟨"N", ["ε"]⟩, ⟨"P", ["v"]⟩]
    ofRuleset .arithmetic = .ok arithmetic ∧ arithmetic.grammar.isNonTerminal "ε" = false ∧
      arithmetic.run 20 (arithmetic.initial input) = some (.ok derivation, ⟨[], "$"⟩) ∧
      ∃ tree, SyntaxTree.ofDerivation arithmetic.grammar derivation = .ok tree ∧
        tree.symbol = "E" ∧ tree.frontier arithmetic.grammar = ["v", "+", "v"] := by
  intro input derivation
  have unexpanded : arithmetic.grammar.isNonTerminal "ε" = false := by decide +kernel
  have run : arithmetic.run 20 (arithmetic.initial input) = some (.ok derivation, ⟨[], "$"⟩) ∧
      (arithmetic.elementsRead 20 (arithmetic.initial input)).map Element.kind =
        ["v", "ε", "+", "v"] := by
    decide +kernel
  obtain ⟨ended, isRead⟩ := run
  obtain ⟨_, _, _, ⟨tree, built, isStart, _, frontier⟩, _⟩ :=
    run_sound ofRuleset_arithmetic (fun empty declared => Option.some.inj declared ▸ unexpanded)
      ended
  rw [isRead] at frontier
  exact ⟨ofRuleset_arithmetic, unexpanded, ended, tree, built, isStart, frontier⟩

end Precedence.Parser
