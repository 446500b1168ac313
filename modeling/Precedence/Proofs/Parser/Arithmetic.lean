import Precedence.Proofs.Parser.Bundled
import Precedence.Proofs.Parser.PlanTable

/-!
# Arithmetic expressions

The grammar of arithmetic expressions has empty bodies, and its relations have nothing for most
elements that can come after an operand. Its parser still has a plan. In the place of `N`, after an
operand, the empty symbol is inserted before everything but `x`, and in the place of `F`, after a
product, before everything but `+`. So no more than two empty symbols are inserted between two
elements, and the limit on them is never reached.
-/

namespace Precedence.Parser

/-- Where the non-terminals of arithmetic expressions may be expected. -/
def arithmeticTable : PlanTable where
  places :=
    [("E", ["$", "("], [")", "$"]), ("F", ["M"], [")", "$"]),
      ("M", ["$", "(", "+"], ["+", ")", "$"]), ("N", ["P"], ["+", ")", "$"]),
      ("P", ["$", "(", "+", "x"], ["x", "+", ")", "$"])].flatMap fun (symbol, belows, follows) =>
        belows.flatMap fun below => follows.map fun follow => ⟨below, symbol, follow⟩
  firsts symbol := if symbol = "F" then ["+"] else if symbol = "N" then ["x"] else ["(", "v"]
  vanishing := ["F", "N"]
  spent symbol := if symbol ∈ ["M", "N"] then 1 else if symbol ∈ ["E", "F"] then 2 else 0

/-- The table of arithmetic expressions is a plan. -/
theorem isPlan_arithmeticTable : arithmeticTable.IsPlan arithmetic := by decide +kernel

/-- A word without end marker and empty symbol is parsed exactly when it is generated by `E`, and
then to its only rightmost derivation. -/
theorem parse_arithmetic_exact {word : List String} (unended : "$" ∉ word) (present : "ε" ∉ word) :
    ofRuleset .arithmetic = .ok arithmetic ∧
    ((∃ derivation, (arithmetic.parse word.length (SymbolSupply.mk word "$")).1 = .ok derivation) ↔
      arithmetic.grammar.Generates "E" word) ∧
    ∀ derivation, (arithmetic.parse word.length (SymbolSupply.mk word "$")).1 = .ok derivation →
      arithmetic.grammar.Derives "E" derivation word ∧
        ∀ other, arithmetic.grammar.Derives "E" other word → other = derivation := by
  have exactly : ∀ derivation,
      (arithmetic.parse word.length (SymbolSupply.mk word "$")).1 = .ok derivation ↔
        arithmetic.grammar.Derives "E" derivation word := by
    intro derivation
    refine (arithmeticTable.plan accepted_arithmetic isPlan_arithmeticTable).parse_eq_ok_iff
      accepted_arithmetic isPlan_arithmeticTable.1 unitAcyclic_arithmetic rfl unended ?_
    intro symbol held
    rw [Grammar.isEmptySymbol, decide_eq_false_iff_not]
    intro isEmpty
    exact present (Option.some.inj isEmpty ▸ held)
  refine ⟨ofRuleset_arithmetic, ?_, ?_⟩
  · exact exists_congr exactly
  · intro derivation parsed
    refine ⟨(exactly derivation).mp parsed, fun other derives => ?_⟩
    have otherParsed := (exactly other).mpr derives
    rw [parsed] at otherParsed
    exact (Except.ok.inj otherParsed).symm

/-- A nested expression is parsed to its only derivation. -/
theorem parse_arithmetic_nested :
    let word := ["(", "v", "+", "v", ")", "x", "v"]
    let derivation : Derivation := [
      ⟨"E", ["M", "F"]⟩, ⟨"F", ["ε"]⟩, ⟨"M", ["P", "N"]⟩, ⟨"N", ["x", "P", "N"]⟩,
      ⟨"N", ["ε"]⟩, ⟨"P", ["v"]⟩, ⟨"P", ["(", "E", ")"]⟩, ⟨"E", ["M", "F"]⟩,
      ⟨"F", ["+", "M", "F"]⟩, ⟨"F", ["ε"]⟩, ⟨"M", ["P", "N"]⟩, ⟨"N", ["ε"]⟩, ⟨"P", ["v"]⟩,
      ⟨"M", ["P", "N"]⟩, ⟨"N", ["ε"]⟩, ⟨"P", ["v"]⟩]
    "$" ∉ word ∧ "ε" ∉ word ∧
      (arithmetic.parse word.length (SymbolSupply.mk word "$")).1 = .ok derivation ∧
      arithmetic.grammar.Generates "E" word ∧
      ∀ other, arithmetic.grammar.Derives "E" other word → other = derivation := by
  intro word derivation
  have unended : "$" ∉ word := by decide
  have present : "ε" ∉ word := by decide
  have parsed : (arithmetic.parse word.length (SymbolSupply.mk word "$")).1 = .ok derivation := by
    decide +kernel
  obtain ⟨_, generates, unique⟩ := parse_arithmetic_exact unended present
  exact ⟨unended, present, parsed, generates.mp ⟨derivation, parsed⟩,
    (unique derivation parsed).2⟩

end Precedence.Parser
