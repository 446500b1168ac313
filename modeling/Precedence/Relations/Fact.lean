import Precedence.Distinct

/-!
# Facts about symbols

A fact says how a symbol stands to the symbol after it. A table of facts keeps them in the order
found, and an index of them by their left symbol for look-ups. A fact is entered only if the index
lacks it, so the list never repeats one, and the index has exactly the facts of the list.
-/

namespace Precedence

/-- How a symbol stands to the symbol after it. -/
inductive Relation
  /-- The symbol yields: what follows it begins a body. -/
  | yields
  /-- The two symbols are neighbours in a body. -/
  | equal
  /-- The symbol takes over: it ends a body. -/
  | takes
  deriving DecidableEq

/-- The sign of a relation. -/
def Relation.sign : Relation → String
  | .yields => "<"
  | .equal => "="
  | .takes => ">"

/-- The name of a relation. -/
def Relation.name : Relation → String
  | .yields => "yields"
  | .equal => "equal"
  | .takes => "takes"

/-- One relation between two symbols. -/
@[ext]
structure Fact where
  /-- The symbol on the left. -/
  left : String
  /-- How it stands to the other. -/
  relation : Relation
  /-- The symbol on the right. -/
  right : String
  deriving DecidableEq

/-- The two symbols with the sign between them. -/
def Fact.display (fact : Fact) : String :=
  s!"{fact.left} {fact.relation.sign} {fact.right}"

/-- Facts in the order found, with an index of them. -/
structure FactTable where
  /-- The facts, each once, in the order found. -/
  facts : List Fact := []
  /-- For each left symbol of a fact, how it stands to which right symbols. -/
  index : List (String × List (Relation × String)) := []
  deriving DecidableEq

namespace FactTable

/-- How a left symbol stands to which right symbols. -/
def row (index : List (String × List (Relation × String))) (left : String) :
    List (Relation × String) :=
  (index.lookup left).getD []

/-- The index with a fact added to the row of its left symbol. -/
def addToRow (fact : Fact) :
    List (String × List (Relation × String)) → List (String × List (Relation × String))
  | [] => [(fact.left, [(fact.relation, fact.right)])]
  | (left, known) :: rows =>
    if left = fact.left then (left, (fact.relation, fact.right) :: known) :: rows
    else (left, known) :: addToRow fact rows

/-- Whether the index has a fact. -/
def contains (table : FactTable) (fact : Fact) : Bool :=
  (fact.relation, fact.right) ∈ row table.index fact.left

/-- The table with a fact entered at the end of the list, unless the index has it. -/
def insert (table : FactTable) (fact : Fact) : FactTable :=
  if table.contains fact then table
  else ⟨table.facts ++ [fact], addToRow fact table.index⟩

/-- The table of facts that are found one after another. -/
def ofFacts (found : List Fact) : FactTable :=
  found.foldl insert {}

/-! ## The index -/

/-- The first row of a symbol is its row. -/
theorem row_cons (held wanted : String) (known : List (Relation × String))
    (rows : List (String × List (Relation × String))) :
    row ((held, known) :: rows) wanted = if held = wanted then known else row rows wanted := by
  by_cases same : wanted = held
  · simp [row, same]
  · have different : (wanted == held) = false := beq_false_of_ne same
    simp [row, List.lookup_cons, different, Ne.symm same]

/-- Adding a fact extends the row of its left symbol alone. -/
theorem row_addToRow (fact : Fact) (index : List (String × List (Relation × String)))
    (left : String) :
    row (addToRow fact index) left =
      if fact.left = left then (fact.relation, fact.right) :: row index left
      else row index left := by
  induction index with
  | nil => rw [addToRow, row_cons, row, List.lookup_nil, Option.getD_none]
  | cons entry rows ih =>
    obtain ⟨held, known⟩ := entry
    by_cases first : held = fact.left <;> by_cases same : held = left <;>
      simp_all [addToRow, row_cons, eq_comm]

/-- A table whose index is extended by a fact has that fact besides those it had. -/
theorem contains_addToRow (facts : List Fact) (index : List (String × List (Relation × String)))
    (fact other : Fact) :
    contains ⟨facts, addToRow fact index⟩ other = true ↔
      contains ⟨facts, index⟩ other = true ∨ other = fact := by
  rw [contains, contains, row_addToRow, decide_eq_true_eq, decide_eq_true_eq, Fact.ext_iff]
  by_cases same : fact.left = other.left
  · rw [if_pos same, List.mem_cons, Prod.mk.injEq, or_comm]
    simp [same]
  · rw [if_neg same]
    simp [Ne.symm same]

/-! ## The list and the index in step -/

/-- Whether the index has exactly the facts of the list. -/
def Indexed (table : FactTable) : Prop :=
  ∀ fact, table.contains fact = true ↔ fact ∈ table.facts

/-- A table without facts is indexed. -/
theorem indexed_nil : Indexed {} := by
  intro fact
  simp [contains, row]

/-- Entering a fact adds it to the list if the list lacks it. -/
theorem Indexed.facts_insert {table : FactTable} (indexed : table.Indexed) (fact : Fact) :
    (table.insert fact).facts = addMissing table.facts fact := by
  simp only [insert, addMissing, indexed fact]
  split <;> rfl

/-- Entering a fact keeps the index and the list in step. -/
theorem Indexed.insert {table : FactTable} (indexed : table.Indexed) (fact : Fact) :
    (table.insert fact).Indexed := by
  intro other
  rw [indexed.facts_insert, mem_addMissing, ← indexed other, FactTable.insert]
  split
  · rename_i held
    refine ⟨Or.inl, fun either => either.elim id ?_⟩
    rintro rfl
    exact held
  · exact contains_addToRow _ _ _ _

/-- Facts found one after another are listed in the order of first occurrence, with the index in
step. -/
theorem ofFacts_spec (found : List Fact) :
    (ofFacts found).Indexed ∧ (ofFacts found).facts = distinct found := by
  suffices general : ∀ table : FactTable, table.Indexed →
      (found.foldl FactTable.insert table).Indexed ∧
        (found.foldl FactTable.insert table).facts = found.foldl addMissing table.facts from
    general {} indexed_nil
  induction found with
  | nil => exact fun table indexed => ⟨indexed, rfl⟩
  | cons fact found ih =>
    intro table indexed
    rw [List.foldl_cons, List.foldl_cons, ← indexed.facts_insert]
    exact ih (table.insert fact) (indexed.insert fact)

end FactTable

end Precedence
