import Precedence.Proofs.Parser.Bundled
import Precedence.Proofs.Relations.Expansion

/-!
# The order of declaration

The order of the productions decides the order in which symbols, edge symbols and facts are listed,
and so the places of rows and columns. It decides nothing that a parser asks its tables for: the
relations and the actions depend only on which productions there are, and two grammars with the same
productions in another order have the same ones. What is left to the order is the choice between
productions with one body.
-/

namespace Precedence

namespace Grammar

/-- Two well-formed grammars have the same productions, in whatever order, and the same empty
symbol. -/
structure Reordered (other grammar : Grammar) : Prop where
  /-- The one grammar is well formed. -/
  wellFormed : other.WellFormed
  /-- The other grammar is well formed. -/
  original : grammar.WellFormed
  /-- The productions are the same but for their order. -/
  perm : other.productions.Perm grammar.productions
  /-- The empty symbol is the same. -/
  emptySymbol_eq : other.emptySymbol = grammar.emptySymbol

namespace Reordered

variable {other grammar : Grammar}

/-- The non-terminals are the same. -/
theorem isNonTerminal_eq (reordered : other.Reordered grammar) (symbol : String) :
    other.isNonTerminal symbol = grammar.isNonTerminal symbol := by
  rw [Bool.eq_iff_iff, reordered.wellFormed.isNonTerminal_iff, reordered.original.isNonTerminal_iff]
  simp only [reordered.perm.mem_iff]

/-- The same symbols stand in bodies. -/
theorem occurs_iff (reordered : other.Reordered grammar) {symbol : String} :
    other.Occurs symbol ↔ grammar.Occurs symbol := by
  simp only [Occurs, reordered.perm.mem_iff]

/-- The terminals are the same. -/
theorem mem_terminals_iff (reordered : other.Reordered grammar) {symbol : String} :
    symbol ∈ other.terminals ↔ symbol ∈ grammar.terminals := by
  rw [reordered.wellFormed.mem_terminals_iff, reordered.original.mem_terminals_iff,
    reordered.occurs_iff, reordered.isNonTerminal_eq, reordered.emptySymbol_eq]

/-- The symbols are the same. -/
theorem mem_symbols_iff (reordered : other.Reordered grammar) {symbol : String} :
    symbol ∈ other.symbols ↔ symbol ∈ grammar.symbols := by
  simp only [symbols, List.mem_append, reordered.mem_terminals_iff, reordered.emptySymbol_eq,
    reordered.wellFormed.mem_nonTerminals_iff, reordered.original.mem_nonTerminals_iff,
    reordered.isNonTerminal_eq]

/-- The same symbols are neighbours. -/
theorem adjacent_iff (reordered : other.Reordered grammar) {x y : String} :
    other.Adjacent x y ↔ grammar.Adjacent x y := by
  simp only [Adjacent, reordered.perm.mem_iff]

/-- Symbols begin with the same symbols. -/
theorem begins_iff (reordered : other.Reordered grammar) {symbol first : String} :
    other.Begins symbol first ↔ grammar.Begins symbol first := by
  rw [Begins, Begins, reordered.isNonTerminal_eq, properEdgePath_iff_of_perm reordered.perm]

end Reordered

end Grammar

namespace Relations

variable {other grammar : Grammar}

/-- The same relations hold. -/
theorem holds_eq_of_reordered (reordered : other.Reordered grammar)
    (start endMarker left : String) (relation : Relation) (right : String) :
    (ofGrammar other start endMarker).holds left relation right =
      (ofGrammar grammar start endMarker).holds left relation right := by
  rw [Bool.eq_iff_iff]
  cases relation with
  | equal => rw [holds_equal_iff, holds_equal_iff, reordered.adjacent_iff]
  | yields =>
    rw [holds_yields_iff reordered.wellFormed, holds_yields_iff reordered.original]
    simp only [reordered.adjacent_iff, Grammar.properEdgePath_iff_of_perm reordered.perm]
  | takes =>
    rw [holds_takes_iff reordered.wellFormed, holds_takes_iff reordered.original]
    simp only [reordered.adjacent_iff, reordered.begins_iff,
      Grammar.properEdgePath_iff_of_perm reordered.perm]

/-- The same symbols may be read after each other. -/
theorem shifts_eq_of_reordered (reordered : other.Reordered grammar)
    (start endMarker left right : String) :
    (ofGrammar other start endMarker).shifts left right =
      (ofGrammar grammar start endMarker).shifts left right := by
  simp only [shifts, holds_eq_of_reordered reordered]

/-- No conflict is listed twice. -/
theorem nodup_conflicts (grammar : Grammar) (start endMarker : String) :
    (ofGrammar grammar start endMarker).conflicts.Nodup := by
  refine (nodup_facts grammar start endMarker).filterMap ?_
  rintro ⟨left, relation, right⟩ ⟨alsoLeft, alsoRelation, alsoRight⟩ pair chosen alsoChosen
  simp only [Option.mem_def, Option.ite_none_right_eq_some, Option.some.injEq]
    at chosen alsoChosen
  obtain ⟨⟨rfl, _⟩, rfl⟩ := chosen
  obtain ⟨⟨rfl, _⟩, same⟩ := alsoChosen
  obtain ⟨rfl, rfl⟩ := Prod.mk.inj same
  rfl

/-- The same conflicts are listed, in whatever order. -/
theorem conflicts_perm_of_reordered (reordered : other.Reordered grammar)
    (start endMarker : String) :
    (ofGrammar other start endMarker).conflicts.Perm
      (ofGrammar grammar start endMarker).conflicts := by
  rw [List.perm_ext_iff_of_nodup (nodup_conflicts other start endMarker)
    (nodup_conflicts grammar start endMarker)]
  rintro ⟨left, right⟩
  rw [mem_conflicts_iff (indexed_ofGrammar other start endMarker),
    mem_conflicts_iff (indexed_ofGrammar grammar start endMarker),
    holds_eq_of_reordered reordered, shifts_eq_of_reordered reordered]

end Relations

/-- The table has the same action for every pair of symbols. -/
theorem ActionTable.action_eq_of_reordered {other grammar : Grammar}
    (reordered : other.Reordered grammar) (start endMarker row column : String) :
    (ofRelations other (.ofGrammar other start endMarker) endMarker).action row column =
      (ofRelations grammar (.ofGrammar grammar start endMarker) endMarker).action row column := by
  have same : decideAction (.ofGrammar other start endMarker) row column =
      decideAction (.ofGrammar grammar start endMarker) row column := by
    simp only [decideAction, Relations.shifts_eq_of_reordered reordered,
      Relations.holds_eq_of_reordered reordered]
  rw [action_eq reordered.wellFormed, action_eq reordered.original, same]
  simp only [reordered.mem_terminals_iff, reordered.emptySymbol_eq]

/-- The grammar of an accepted ruleset is made from its productions. -/
theorem Ruleset.ofProductions_of_grammar {ruleset : Ruleset} {grammar : Grammar}
    (made : ruleset.grammar = .ok grammar) :
    Grammar.ofProductions ruleset.productions ruleset.empty = .ok grammar := by
  rw [Ruleset.grammar] at made
  split at made
  · cases made
  · rename_i candidate indexed
    split at made
    · cases made
    · split at made
      · cases made
      · exact Except.ok.inj made ▸ indexed

/-- A ruleset with the productions of an accepted one in another order has a grammar, if start
symbol, end marker and empty symbol are the same. -/
theorem Ruleset.grammar_of_reordered {ruleset reordered : Ruleset} {grammar other : Grammar}
    (made : ruleset.grammar = .ok grammar)
    (indexed : Grammar.ofProductions reordered.productions reordered.empty = .ok other)
    (same : other.Reordered grammar) (sameStart : reordered.start = ruleset.start)
    (sameEnd : reordered.endMarker = ruleset.endMarker) : reordered.grammar = .ok other := by
  have accepted := (Grammar.accepted_of_ruleset made).1
  have heads : other.isNonTerminal reordered.start = true := by
    rw [same.isNonTerminal_eq, sameStart]
    exact accepted.start_isNonTerminal
  have fresh : reordered.endMarker ∉ other.symbols := by
    rw [same.mem_symbols_iff, sameEnd]
    exact accepted.endMarker_not_mem
  simp only [Ruleset.grammar, indexed, heads, Bool.not_true, Bool.false_eq_true, if_false,
    if_neg fresh]

namespace Parser

/-- The productions of an accepted ruleset make a grammar in every order, and every ruleset that
lists them in that order with the same start symbol, end marker and empty symbol is accepted with
it. Its parser has the same relations between all symbols, the same conflicts, and the same action
for every symbol on top and every symbol that comes next. -/
theorem decisions_of_perm {ruleset : Ruleset} {grammar : Grammar}
    (made : ruleset.grammar = .ok grammar) {productions : List Production}
    (perm : productions.Perm ruleset.productions) :
    ∃ other, Grammar.ofProductions productions ruleset.empty = .ok other ∧
      (∀ rules, { ruleset with rules }.productions = productions →
        { ruleset with rules }.grammar = .ok other) ∧
      let parser := ofGrammar grammar ruleset.start ruleset.endMarker
      let reordered := ofGrammar other ruleset.start ruleset.endMarker
      (∀ left relation right, reordered.relations.holds left relation right =
        parser.relations.holds left relation right) ∧
      reordered.relations.conflicts.Perm parser.relations.conflicts ∧
      ∀ top next, reordered.table.action top next = parser.table.action top next := by
  have indexed := Ruleset.ofProductions_of_grammar made
  obtain ⟨original, isProductions, isEmpty⟩ := Grammar.ofProductions_ok indexed
  obtain ⟨other, otherIndexed⟩ := Grammar.exists_ofProductions_of_perm indexed perm
  obtain ⟨wellFormed, areProductions, alsoEmpty⟩ := Grammar.ofProductions_ok otherIndexed
  have same : other.Reordered grammar :=
    ⟨wellFormed, original, by rw [areProductions, isProductions]; exact perm,
      alsoEmpty.trans isEmpty.symm⟩
  refine ⟨other, otherIndexed, fun rules listed => ?_,
    Relations.holds_eq_of_reordered same ruleset.start ruleset.endMarker,
    Relations.conflicts_perm_of_reordered same ruleset.start ruleset.endMarker,
    ActionTable.action_eq_of_reordered same ruleset.start ruleset.endMarker⟩
  exact Ruleset.grammar_of_reordered made (listed ▸ otherIndexed) same rfl rfl

/-- Arithmetic expressions with their productions declared from the last to the first. -/
theorem decisions_of_perm_arithmetic :
    let productions := Ruleset.arithmetic.productions.reverse
    let other := Grammar.index productions (some "ε")
    Ruleset.arithmetic.grammar = .ok arithmetic.grammar ∧
      productions.Perm Ruleset.arithmetic.productions ∧
      Grammar.ofProductions productions (some "ε") = .ok other ∧
      other.nonTerminals ≠ arithmetic.grammar.nonTerminals ∧
      ∀ top next, (ofGrammar other "E" "$").table.action top next =
        arithmetic.table.action top next := by
  intro productions other
  have made : Ruleset.arithmetic.grammar = .ok arithmetic.grammar := rfl
  have perm : productions.Perm Ruleset.arithmetic.productions := List.reverse_perm _
  obtain ⟨alsoOther, indexed, _, _, _, actions⟩ := decisions_of_perm made perm
  have isOther : Grammar.ofProductions productions (some "ε") = .ok other := rfl
  obtain rfl : other = alsoOther := Except.ok.inj (isOther.symm.trans indexed)
  exact ⟨made, perm, isOther, by decide +kernel, actions⟩

end Parser

end Precedence
