import Precedence.Grammar.Bundled
import Precedence.Proofs.Grammar.UnitStep
import Precedence.Proofs.Parser.Handle

/-!
# Parsers of the bundled grammars

Both bundled rulesets pass every check, so they have a parser. In both grammars a symbol that is
the whole body of another one is declared after it, so unit steps have no cycle.
-/

namespace Precedence.Parser

/-- The parser of the small imperative language. -/
def program : Parser :=
  ofGrammar (Grammar.index Ruleset.program.productions none) "<program>" "$"

/-- The parser of arithmetic expressions over single characters. -/
def arithmetic : Parser :=
  ofGrammar (Grammar.index Ruleset.arithmetic.productions (some "ε")) "E" "$"

/-- The ruleset of the small imperative language passes every check. -/
theorem ofRuleset_program : ofRuleset .program = .ok program := by rfl

/-- The ruleset of arithmetic expressions passes every check. -/
theorem ofRuleset_arithmetic : ofRuleset .arithmetic = .ok arithmetic := by rfl

/-- The parser of the small imperative language is accepted. -/
theorem accepted_program : program.Accepted :=
  (accepted_of_ruleset ofRuleset_program).1

/-- The parser of arithmetic expressions is accepted. -/
theorem accepted_arithmetic : arithmetic.Accepted :=
  (accepted_of_ruleset ofRuleset_arithmetic).1

/-- Unit steps have no cycle in arithmetic expressions. -/
theorem unitAcyclic_arithmetic : arithmetic.grammar.UnitAcyclic :=
  Grammar.unitAcyclic_of_order arithmetic.grammar.nonTerminals (by decide +kernel)

end Precedence.Parser
