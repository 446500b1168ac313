import Precedence.Relations.Basic

/-!
# The action table

The table says what a parser does with a symbol on top of its stack and the symbol that comes
next. Its columns are what can come next: the terminals, the empty symbol if there is one, and the
end marker. Its rows are what can be on top: the non-terminals and every column. A look-up asks an
index for the places of the two symbols, where the last place of a repeated symbol counts.
-/

namespace Precedence

/-- What a parser does. -/
inductive Action
  /-- Read the next symbol. -/
  | shift
  /-- Replace the body on top of the stack by its head. -/
  | reduce
  /-- Neither. -/
  | undefined
  deriving DecidableEq

/-- The letter of an action in a grid. -/
def Action.letter : Action → Char
  | .shift => 'S'
  | .reduce => 'R'
  | .undefined => '-'

/-- The name of an action. -/
def Action.name : Action → String
  | .shift => "shift"
  | .reduce => "reduce"
  | .undefined => "undefined"

/-- Actions by the symbol on top of the stack and the symbol that comes next. -/
structure ActionTable where
  /-- The symbols that can be on top. -/
  rows : List String
  /-- The symbols that can come next. -/
  columns : List String
  /-- The actions, a list for each row with an action for each column. -/
  cells : List (List Action)
  /-- The place of each row. -/
  rowIndex : List (String × Nat)
  /-- The place of each column. -/
  columnIndex : List (String × Nat)
  deriving DecidableEq

namespace ActionTable

/-- The place of each symbol of a list, the last one first. -/
def places (symbols : List String) : List (String × Nat) :=
  symbols.zipIdx.reverse

/-- What the relations call for: reading wins over reducing. -/
def decideAction (relations : Relations) (row column : String) : Action :=
  if relations.shifts row column then .shift
  else if relations.holds row .takes column then .reduce
  else .undefined

/-- The table of a grammar with its relations and an end marker. -/
def ofRelations (grammar : Grammar) (relations : Relations) (endMarker : String) : ActionTable :=
  let columns := grammar.terminals ++ grammar.emptySymbol.toList ++ [endMarker]
  let rows := grammar.nonTerminals ++ columns
  { rows
    columns
    cells := rows.map fun row => columns.map (decideAction relations row)
    rowIndex := places rows
    columnIndex := places columns }

/-- The action for a symbol on top of the stack and a symbol that comes next. It is undefined
outside the table. -/
def action (table : ActionTable) (row column : String) : Action :=
  match table.rowIndex.lookup row, table.columnIndex.lookup column with
  | some i, some j => ((table.cells[i]?.getD [])[j]?).getD .undefined
  | _, _ => .undefined

/-! ## The index -/

/-- A symbol stands at the place that the index gives. -/
theorem getElem?_of_lookup_places {symbols : List String} {symbol : String} {place : Nat}
    (found : (places symbols).lookup symbol = some place) : symbols[place]? = some symbol := by
  obtain ⟨before, after, split, _⟩ := List.lookup_eq_some_iff.mp found
  have listed : (symbol, place) ∈ places symbols := by simp [split]
  rw [places, List.mem_reverse] at listed
  exact List.mem_zipIdx_iff_getElem?.mp listed

/-- The index gives a place for exactly the symbols of the list. -/
theorem lookup_places_eq_none_iff {symbols : List String} {symbol : String} :
    (places symbols).lookup symbol = none ↔ symbol ∉ symbols := by
  rw [List.lookup_eq_none_iff]
  constructor
  · intro missing listed
    obtain ⟨place, inside, same⟩ := List.getElem_of_mem listed
    have entry : (symbol, place) ∈ places symbols := by
      rw [places, List.mem_reverse, List.mem_zipIdx_iff_getElem?, List.getElem?_eq_getElem inside,
        same]
    simpa using missing _ entry
  · intro missing entry held
    rw [places, List.mem_reverse, List.mem_zipIdx_iff_getElem?] at held
    have listed := List.mem_of_getElem? held
    simp only [bne_iff_ne, ne_eq]
    rintro rfl
    exact missing listed

end ActionTable

end Precedence
