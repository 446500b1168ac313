import Mathlib.Data.List.Basic
import Mathlib.Logic.Relation
import Precedence.Grammar.Basic

/-!
# Bodies of one symbol

A unit step goes from the head of a production whose body is one symbol to that symbol. Where unit
steps have no cycle, every symbol has a rank, the number of non-terminals that lead to it by unit
steps. The rank of the head is less than the rank of the symbol, and no rank is more than the
number of non-terminals.
-/

namespace Precedence.Grammar

/-- A symbol has a production whose body is another symbol alone. -/
def UnitStep (grammar : Grammar) (head symbol : String) : Prop :=
  ⟨head, [symbol]⟩ ∈ grammar.productions

/-- No symbol leads to itself by unit steps. -/
def UnitAcyclic (grammar : Grammar) : Prop :=
  ∀ symbol, ¬ Relation.TransGen grammar.UnitStep symbol symbol

variable {grammar : Grammar}

/-- Unit steps have no cycle if some measure grows from each symbol to the head over it. -/
theorem unitAcyclic_of_measure (measure : String → Nat)
    (grows : ∀ production ∈ grammar.productions, ∀ symbol, production.body = [symbol] →
      measure symbol < measure production.head) : grammar.UnitAcyclic := by
  have along : ∀ {head symbol : String}, Relation.TransGen grammar.UnitStep head symbol →
      measure symbol < measure head := by
    intro head symbol path
    induction path with
    | single stepped => exact grows _ stepped _ rfl
    | tail _ stepped ih => exact Nat.lt_trans (grows _ stepped _ rfl) ih
  exact fun symbol cycle => Nat.lt_irrefl _ (along cycle)

/-- Unit steps have no cycle if in some order every head comes before the symbols that it has as a
body. -/
theorem unitAcyclic_of_order (order : List String)
    (later : ∀ production ∈ grammar.productions, ∀ symbol ∈ production.body,
      production.body = [symbol] → order.idxOf production.head < order.idxOf symbol) :
    grammar.UnitAcyclic := by
  refine unitAcyclic_of_measure (fun symbol => order.length - order.idxOf symbol) ?_
  intro production declared symbol isBody
  have before := later production declared symbol (isBody ▸ List.mem_cons_self) isBody
  have inside : order.idxOf symbol ≤ order.length := List.idxOf_le_length
  show order.length - order.idxOf symbol < order.length - order.idxOf production.head
  omega

open Classical in
/-- The number of non-terminals that lead to a symbol by unit steps. -/
noncomputable def unitRank (grammar : Grammar) (symbol : String) : Nat :=
  (grammar.nonTerminals.filter
    fun head => decide (Relation.TransGen grammar.UnitStep head symbol)).length

/-- No rank is more than the number of non-terminals. -/
theorem unitRank_le (grammar : Grammar) (symbol : String) :
    grammar.unitRank symbol ≤ grammar.nonTerminals.length :=
  List.length_filter_le _ _

open Classical in
/-- The rank of a head is less than that of a symbol that it has as a body. -/
theorem unitRank_lt (acyclic : grammar.UnitAcyclic) {head symbol : String}
    (listed : head ∈ grammar.nonTerminals) (stepped : grammar.UnitStep head symbol) :
    grammar.unitRank head < grammar.unitRank symbol := by
  have subset : (grammar.nonTerminals.filter
        fun other => decide (Relation.TransGen grammar.UnitStep other head)) =
      (grammar.nonTerminals.filter
        fun other => decide (Relation.TransGen grammar.UnitStep other symbol)).filter
          fun other => decide (Relation.TransGen grammar.UnitStep other head) := by
    rw [List.filter_filter]
    refine List.filter_congr fun other _ => ?_
    by_cases leads : Relation.TransGen grammar.UnitStep other head
    · simp [leads, Relation.TransGen.tail leads stepped]
    · simp [leads]
  rw [unitRank, unitRank, subset]
  refine List.length_filter_lt_length_iff_exists.mpr ⟨head, ?_, ?_⟩
  · exact List.mem_filter.mpr ⟨listed, decide_eq_true (.single stepped)⟩
  · simpa using acyclic head

end Precedence.Grammar
