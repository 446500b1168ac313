import Precedence.ActionTable
import Precedence.Proofs.Relations.Facts

/-!
# The action table and the relations

A look-up in the table of a grammar finds what the relations call for in every column, and nothing
outside the columns. No row is missing: a symbol that stands on the left of a relation stands in a
body or is the end marker.
-/

namespace Precedence.ActionTable

/-- The relations call for reading a symbol exactly when it may be read. -/
theorem decideAction_eq_shift_iff {relations : Relations} {row column : String} :
    decideAction relations row column = .shift ↔ relations.shifts row column = true := by
  rw [decideAction]
  split
  · simp_all
  · split <;> simp_all

/-- A listed symbol has a place in the index, and it stands there. -/
theorem exists_place {symbols : List String} {symbol : String} (listed : symbol ∈ symbols) :
    ∃ place, (places symbols).lookup symbol = some place ∧ symbols[place]? = some symbol := by
  cases found : (places symbols).lookup symbol with
  | none => exact absurd listed (lookup_places_eq_none_iff.mp found)
  | some place => exact ⟨place, rfl, getElem?_of_lookup_places found⟩

/-- A look-up in listed rows and columns finds what the relations call for, whichever of its places
the index gives for a repeated symbol. -/
theorem action_of_mem {grammar : Grammar} {relations : Relations} {endMarker row column : String}
    (rowListed : row ∈ (ofRelations grammar relations endMarker).rows)
    (columnListed : column ∈ (ofRelations grammar relations endMarker).columns) :
    (ofRelations grammar relations endMarker).action row column =
      decideAction relations row column := by
  obtain ⟨i, rowFound, isRow⟩ := exists_place rowListed
  obtain ⟨j, columnFound, isColumn⟩ := exists_place columnListed
  simp only [ofRelations] at rowFound columnFound isRow isColumn
  simp only [action, ofRelations, rowFound, columnFound]
  rw [List.getElem?_map, isRow, Option.map_some, Option.getD_some]
  rw [List.getElem?_map, isColumn, Option.map_some, Option.getD_some]

/-- A look-up in a row that is not listed finds nothing. -/
theorem action_of_row_not_mem {grammar : Grammar} {relations : Relations}
    {endMarker row column : String}
    (missing : row ∉ (ofRelations grammar relations endMarker).rows) :
    (ofRelations grammar relations endMarker).action row column = .undefined := by
  have unplaced : (ofRelations grammar relations endMarker).rowIndex.lookup row = none :=
    lookup_places_eq_none_iff.mpr missing
  rw [action, unplaced]

/-- A look-up in a column that is not listed finds nothing. -/
theorem action_of_column_not_mem {grammar : Grammar} {relations : Relations}
    {endMarker row column : String}
    (missing : column ∉ (ofRelations grammar relations endMarker).columns) :
    (ofRelations grammar relations endMarker).action row column = .undefined := by
  have unplaced : (ofRelations grammar relations endMarker).columnIndex.lookup column = none :=
    lookup_places_eq_none_iff.mpr missing
  rw [action, unplaced]
  cases (ofRelations grammar relations endMarker).rowIndex.lookup row <;> rfl

/-- What may be read next: the terminals, the empty symbol and the end marker. -/
theorem mem_columns_iff {grammar : Grammar} {relations : Relations} {endMarker column : String} :
    column ∈ (ofRelations grammar relations endMarker).columns ↔
      column ∈ grammar.terminals ∨ grammar.emptySymbol = some column ∨ column = endMarker := by
  simp [ofRelations]

/-- A symbol that stands in a body has a row. -/
theorem mem_rows_of_occurs {grammar : Grammar} (wellFormed : grammar.WellFormed)
    {relations : Relations} {endMarker row : String} (occurs : grammar.Occurs row) :
    row ∈ (ofRelations grammar relations endMarker).rows := by
  have listed := wellFormed.mem_symbols_of_occurs occurs
  simp only [Grammar.symbols, List.mem_append] at listed
  simp only [ofRelations, List.mem_append]
  tauto

/-- What stands on the left of a relation has a row: it stands in a body or is the end marker. -/
theorem mem_rows_of_holds {grammar : Grammar} (wellFormed : grammar.WellFormed)
    {start endMarker left right : String} {relation : Relation}
    (held : (Relations.ofGrammar grammar start endMarker).holds left relation right = true) :
    left ∈ (ofRelations grammar (.ofGrammar grammar start endMarker) endMarker).rows := by
  have listed : grammar.Occurs left ∨ left = endMarker := by
    cases relation with
    | takes => exact Or.inl (Relations.occurs_of_takes wellFormed held)
    | yields | equal =>
      have shifts : (Relations.ofGrammar grammar start endMarker).shifts left right = true := by
        simp [Relations.shifts, held]
      exact Relations.occurs_or_eq_of_shifts wellFormed shifts
  rcases listed with occurs | rfl
  · exact mem_rows_of_occurs wellFormed occurs
  · simp [ofRelations]

/-- The relations call for nothing beside a symbol without a row. -/
theorem decideAction_of_row_not_mem {grammar : Grammar} (wellFormed : grammar.WellFormed)
    {start endMarker row column : String}
    (missing : row ∉ (ofRelations grammar (.ofGrammar grammar start endMarker) endMarker).rows) :
    decideAction (.ofGrammar grammar start endMarker) row column = .undefined := by
  have unrelated (relation : Relation) :
      (Relations.ofGrammar grammar start endMarker).holds row relation column = false := by
    rw [← Bool.not_eq_true]
    exact fun held => missing (mem_rows_of_holds wellFormed held)
  simp [decideAction, Relations.shifts, unrelated]

/-- A look-up finds what the relations call for in every column, and nothing outside them. -/
theorem action_eq {grammar : Grammar} (wellFormed : grammar.WellFormed)
    {start endMarker row column : String} :
    (ofRelations grammar (.ofGrammar grammar start endMarker) endMarker).action row column =
      if column ∈ grammar.terminals ∨ grammar.emptySymbol = some column ∨ column = endMarker then
        decideAction (.ofGrammar grammar start endMarker) row column
      else .undefined := by
  by_cases columnListed :
      column ∈ (ofRelations grammar (.ofGrammar grammar start endMarker) endMarker).columns
  · rw [if_pos (mem_columns_iff.mp columnListed)]
    by_cases rowListed :
        row ∈ (ofRelations grammar (.ofGrammar grammar start endMarker) endMarker).rows
    · exact action_of_mem rowListed columnListed
    · rw [action_of_row_not_mem rowListed, decideAction_of_row_not_mem wellFormed rowListed]
  · rw [if_neg fun listed => columnListed (mem_columns_iff.mpr listed),
      action_of_column_not_mem columnListed]

/-- The table of every grammar that can be made, with any start symbol and any end marker, agrees
with the relations on all pairs of symbols, also where rows or columns repeat; and what stands on
the left of a relation has a row. -/
theorem action_agrees {productions : List Production} {emptySymbol : Option String}
    {grammar : Grammar} (made : Grammar.ofProductions productions emptySymbol = .ok grammar)
    (start endMarker : String) :
    let relations := Relations.ofGrammar grammar start endMarker
    let table := ofRelations grammar relations endMarker
    (∀ row column, table.action row column =
      if grammar.isTerminal column ∨ grammar.isEmptySymbol column ∨ column = endMarker then
        if relations.shifts row column then .shift
        else if relations.holds row .takes column then .reduce
        else .undefined
      else .undefined) ∧
    ∀ left relation right, relations.holds left relation right = true → left ∈ table.rows := by
  intro relations table
  have wellFormed := (Grammar.ofProductions_ok made).1
  refine ⟨fun row column => ?_, fun left relation right => mem_rows_of_holds wellFormed⟩
  have agrees : table.action row column = _ := action_eq wellFormed
  rw [agrees]
  simp only [Grammar.isTerminal, Grammar.isEmptySymbol, decide_eq_true_eq]
  rfl

/-- An end marker that stands in a body and an empty symbol that heads a production have two rows
each, and the end marker has two columns. -/
theorem action_agrees_repeated :
    let productions : List Production := [⟨"S", ["a", "$"]⟩, ⟨"S", ["e"]⟩, ⟨"e", ["x", "S"]⟩]
    let grammar := Grammar.index productions (some "e")
    let table := ofRelations grammar (.ofGrammar grammar "S" "$") "$"
    Grammar.ofProductions productions (some "e") = .ok grammar ∧
      table.columns = ["a", "$", "x", "e", "$"] ∧
      table.rows = ["S", "e", "a", "$", "x", "e", "$"] ∧
      table.action "a" "$" = .shift ∧ table.action "$" "$" = .reduce ∧
      table.action "e" "$" = .reduce ∧ table.action "x" "S" = .undefined := by
  intro productions grammar table
  have made : Grammar.ofProductions productions (some "e") = .ok grammar := rfl
  have agrees := (action_agrees made "S" "$").1
  refine ⟨made, by decide +kernel, by decide +kernel, ?_, ?_, ?_, ?_⟩ <;>
    exact (agrees _ _).trans (by decide +kernel)

end Precedence.ActionTable
