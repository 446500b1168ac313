import Mathlib.Logic.Relation
import Precedence.Proofs.ActionTable

/-!
# Conflicts are cells of the table

A pair in conflict may have a non-terminal on its right, for which the table has no column. What
stands first in a form that the non-terminal derives is in conflict with the same left symbol:
both reading and reducing follow left paths. If every non-terminal derives terminals and empty
symbols alone, each conflict so leads to one in a column, and the list of conflicts is empty
exactly when no cell of the table has both a reading and a reduction to choose from.
-/

namespace Precedence

/-- Runs of groups, which are runs of one letter: what follows the letter may belong to its group or
to the next one. -/
def Ruleset.juxtaposed : Ruleset where
  name := none
  start := "S"
  endMarker := "$"
  empty := none
  rules := [⟨"S", ["S T", "T"]⟩, ⟨"T", ["U"]⟩, ⟨"U", ["u U", "u"]⟩]

namespace Grammar

/-- One production of the grammar expands a symbol of a form, wherever it stands. -/
inductive Rewrites (grammar : Grammar) : List String → List String → Prop
  /-- The symbols on both sides of the head stay. -/
  | expand (before after : List String) {production : Production}
      (declared : production ∈ grammar.productions) :
      Rewrites grammar (before ++ production.head :: after) (before ++ production.body ++ after)

/-- A symbol derives a form of terminals and empty symbols alone. -/
def DerivesTerminals (grammar : Grammar) (symbol : String) : Prop :=
  ∃ form, Relation.ReflTransGen grammar.Rewrites [symbol] form ∧
    ∀ other ∈ form, grammar.isTerminal other = true ∨ grammar.isEmptySymbol other = true

variable {grammar : Grammar}

/-- The first symbol of a form stays first, or gives way to what begins a body of it. -/
theorem Rewrites.first (wellFormed : grammar.WellFormed) {form next : List String} {first : String}
    (rewrites : grammar.Rewrites form next) (isFirst : form.head? = some first) :
    ∃ other, next.head? = some other ∧
      Relation.ReflTransGen (grammar.EdgeStep .left) first other := by
  cases rewrites with
  | @expand before after production declared =>
    cases before with
    | nil =>
      obtain rfl := Option.some.inj isFirst
      obtain ⟨other, isFirst⟩ := wellFormed.exists_edge declared .left
      exact ⟨other, head?_body_append isFirst after, .single ⟨production, declared, rfl, isFirst⟩⟩
    | cons => exact ⟨first, isFirst, .refl⟩

/-- What a symbol derives begins where a left path from it leads. -/
theorem exists_first_of_rewrites (wellFormed : grammar.WellFormed) {symbol : String}
    {form : List String} (derived : Relation.ReflTransGen grammar.Rewrites [symbol] form) :
    ∃ first, form.head? = some first ∧
      Relation.ReflTransGen (grammar.EdgeStep .left) symbol first := by
  induction derived with
  | refl => exact ⟨symbol, rfl, .refl⟩
  | tail _ rewrites ih =>
    obtain ⟨middle, isMiddle, path⟩ := ih
    obtain ⟨first, isFirst, later⟩ := rewrites.first wellFormed isMiddle
    exact ⟨first, isFirst, path.trans later⟩

/-- A left path leads from a symbol of a body to a terminal or the empty symbol, if the symbol
derives such symbols alone should it be a non-terminal. -/
theorem exists_leaf_of_occurs (wellFormed : grammar.WellFormed) {symbol : String}
    (occurs : grammar.Occurs symbol)
    (derives : grammar.isNonTerminal symbol = true → grammar.DerivesTerminals symbol) :
    ∃ leaf, Relation.ReflTransGen (grammar.EdgeStep .left) symbol leaf ∧
      (leaf ∈ grammar.terminals ∨ grammar.emptySymbol = some leaf) := by
  cases nonTerminal : grammar.isNonTerminal symbol with
  | true =>
    obtain ⟨form, derived, leaves⟩ := derives nonTerminal
    obtain ⟨leaf, isFirst, path⟩ := exists_first_of_rewrites wellFormed derived
    refine ⟨leaf, path, ?_⟩
    simpa [isTerminal, isEmptySymbol] using leaves leaf (List.mem_of_mem_head? isFirst)
  | false => exact ⟨symbol, .refl, wellFormed.mem_terminals_or_empty occurs nonTerminal⟩

end Grammar

namespace Relations

variable {grammar : Grammar} {start endMarker : String}

/-- A conflict goes along with every left path from its right symbol. -/
theorem conflict_of_path (accepted : grammar.Accepted start endMarker) {z w first : String}
    (conflict : (ofGrammar grammar start endMarker).holds z .takes w = true ∧
      (ofGrammar grammar start endMarker).shifts z w = true)
    (path : Relation.ReflTransGen (grammar.EdgeStep .left) w first) :
    (ofGrammar grammar start endMarker).holds z .takes first = true ∧
      (ofGrammar grammar start endMarker).shifts z first = true := by
  induction path with
  | refl => exact conflict
  | tail _ stepped ih =>
    exact ⟨takes_of_edgeStep accepted ih.1 stepped,
      shifts_of_edgeStep accepted.toWellFormed ih.2 stepped⟩

/-- A left symbol in conflict has a row, and is in conflict with the symbol of some column. -/
theorem exists_cell_of_conflict (accepted : grammar.Accepted start endMarker)
    (derives : ∀ symbol ∈ grammar.nonTerminals, grammar.DerivesTerminals symbol) {z w : String}
    (conflict : (ofGrammar grammar start endMarker).holds z .takes w = true ∧
      (ofGrammar grammar start endMarker).shifts z w = true) :
    let relations := ofGrammar grammar start endMarker
    let table := ActionTable.ofRelations grammar relations endMarker
    z ∈ table.rows ∧ ∃ column ∈ table.columns,
      relations.holds z .takes column = true ∧ relations.shifts z column = true := by
  intro relations table
  have wellFormed := accepted.toWellFormed
  have occurs : grammar.Occurs w := occurs_of_shifts wellFormed conflict.2
  -- The conflict is followed down to what the right symbol derives first.
  obtain ⟨leaf, path, isLeaf⟩ := Grammar.exists_leaf_of_occurs wellFormed occurs
    fun nonTerminal => derives w (wellFormed.mem_nonTerminals_iff.mpr nonTerminal)
  refine ⟨ActionTable.mem_rows_of_occurs wellFormed (occurs_of_takes wellFormed conflict.1),
    leaf, ActionTable.mem_columns_iff.mpr ?_, conflict_of_path accepted conflict path⟩
  exact isLeaf.elim Or.inl fun isEmpty => Or.inr (Or.inl isEmpty)

/-- If every non-terminal of a ruleset derives terminals and empty symbols alone, there is no
conflict exactly when no cell of the action table has both a reading and a reduction to choose
from, that is, when no reading in it hides a reduction. -/
theorem conflicts_exact {ruleset : Ruleset} (made : ruleset.grammar = .ok grammar)
    (derives : ∀ symbol ∈ grammar.nonTerminals, grammar.DerivesTerminals symbol) :
    let relations := ofGrammar grammar ruleset.start ruleset.endMarker
    let table := ActionTable.ofRelations grammar relations ruleset.endMarker
    (relations.conflicts = [] ↔ ¬ ∃ row ∈ table.rows, ∃ column ∈ table.columns,
      relations.shifts row column = true ∧ relations.holds row .takes column = true) ∧
    (relations.conflicts = [] ↔ ∀ row ∈ table.rows, ∀ column ∈ table.columns,
      table.action row column = .shift → relations.holds row .takes column = false) := by
  intro relations table
  have accepted := (Grammar.accepted_of_ruleset made).1
  have indexed : relations.Indexed := indexed_ofGrammar _ _ _
  have cells : relations.conflicts = [] ↔ ¬ ∃ row ∈ table.rows, ∃ column ∈ table.columns,
      relations.shifts row column = true ∧ relations.holds row .takes column = true := by
    rw [conflicts_eq_nil_iff indexed]
    constructor
    · rintro free ⟨row, _, column, _, shifts, takes⟩
      rw [free row column takes] at shifts
      cases shifts
    · intro noCell z w takes
      rw [← Bool.not_eq_true]
      intro shifts
      obtain ⟨isRow, column, isColumn, takes, shifts⟩ :=
        exists_cell_of_conflict accepted derives ⟨takes, shifts⟩
      exact noCell ⟨z, isRow, column, isColumn, shifts, takes⟩
  refine ⟨cells, cells.trans ⟨?_, ?_⟩⟩
  · intro noCell row isRow column isColumn isShift
    rw [ActionTable.action_of_mem isRow isColumn,
      ActionTable.decideAction_eq_shift_iff] at isShift
    rw [← Bool.not_eq_true]
    exact fun takes => noCell ⟨row, isRow, column, isColumn, isShift, takes⟩
  · rintro hidesNone ⟨row, isRow, column, isColumn, shifts, takes⟩
    have isShift : table.action row column = .shift := by
      rw [ActionTable.action_of_mem isRow isColumn, ActionTable.decideAction_eq_shift_iff]
      exact shifts
    rw [hidesNone row isRow column isColumn isShift] at takes
    cases takes

/-- After a letter a group may end or go on with a group inside it. The conflict is listed for the
letter and the inner group, which has no column; but some cell of the table hides a reduction. -/
theorem conflicts_exact_juxtaposed :
    let grammar := Grammar.index Ruleset.juxtaposed.productions none
    let relations := ofGrammar grammar "S" "$"
    let table := ActionTable.ofRelations grammar relations "$"
    Ruleset.juxtaposed.grammar = .ok grammar ∧
      (∀ symbol ∈ grammar.nonTerminals, grammar.DerivesTerminals symbol) ∧
      ("u", "U") ∈ relations.conflicts ∧ "U" ∉ table.columns ∧
      ∃ row ∈ table.rows, ∃ column ∈ table.columns,
        table.action row column = .shift ∧ relations.holds row .takes column = true := by
  intro grammar relations table
  have made : Ruleset.juxtaposed.grammar = .ok grammar := rfl
  have declared : (⟨"S", ["T"]⟩ : Production) ∈ grammar.productions ∧
      (⟨"T", ["U"]⟩ : Production) ∈ grammar.productions ∧
      (⟨"U", ["u"]⟩ : Production) ∈ grammar.productions := by decide +kernel
  have leaves : ∀ other ∈ ["u"],
      grammar.isTerminal other = true ∨ grammar.isEmptySymbol other = true := by decide +kernel
  have ofU : Relation.ReflTransGen grammar.Rewrites ["U"] ["u"] :=
    .single (.expand [] [] declared.2.2)
  have ofT : Relation.ReflTransGen grammar.Rewrites ["T"] ["u"] :=
    .head (.expand [] [] declared.2.1) ofU
  have ofS : Relation.ReflTransGen grammar.Rewrites ["S"] ["u"] :=
    .head (.expand [] [] declared.1) ofT
  have derives : ∀ symbol ∈ grammar.nonTerminals, grammar.DerivesTerminals symbol := by
    have listed : grammar.nonTerminals = ["S", "T", "U"] := by decide +kernel
    rw [listed]
    simp only [List.forall_mem_cons, List.not_mem_nil, false_implies, implies_true, and_true]
    exact ⟨⟨["u"], ofS, leaves⟩, ⟨["u"], ofT, leaves⟩, ⟨["u"], ofU, leaves⟩⟩
  have conflict : ("u", "U") ∈ relations.conflicts := by decide +kernel
  refine ⟨made, derives, conflict, by decide +kernel, ?_⟩
  have exact : relations.conflicts = [] ↔ _ := (conflicts_exact made derives).2
  by_contra noCell
  have none : relations.conflicts = [] := by
    refine exact.mpr fun row isRow column isColumn isShift => ?_
    rw [← Bool.not_eq_true]
    exact fun takes => noCell ⟨row, isRow, column, isColumn, isShift, takes⟩
  rw [none] at conflict
  exact absurd conflict List.not_mem_nil

end Relations

end Precedence
