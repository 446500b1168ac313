import Precedence.Analysis
import Precedence.Proofs.Parser.Bundled
import Precedence.Proofs.Parser.Coverage

/-!
# Derivations that have a tree

The checks of a ruleset do not keep its empty symbol from heading productions. Such an empty symbol
is expanded when a tree is built, but on the stack of the parser it is a leaf: nothing was reduced
to it, so the derivation has no production for it. This is the only way in which a derivation that a
run ends with can fail to have a tree, since everything else put on the stack as a leaf is a
terminal.
-/

namespace Precedence

/-- Sentences of one empty symbol, which can be expanded to a letter. -/
def Ruleset.expandedEmpty : Ruleset where
  name := none
  start := "S"
  endMarker := "$"
  empty := some "e"
  rules := [⟨"S", ["e"]⟩, ⟨"e", ["x"]⟩]

namespace Parser

variable {parser : Parser}

/-- No leaf put on the stack can be expanded exactly when none is an empty symbol that heads a
production. -/
theorem isTerminalForm_leavesStacked_iff (accepted : parser.Accepted) {σ : Type} [Supply σ]
    (steps : Nat) (progress : Progress σ) :
    parser.grammar.IsTerminalForm (parser.leavesStacked steps progress) ↔
      ∀ empty ∈ parser.grammar.emptySymbol, parser.grammar.isNonTerminal empty = true →
        empty ∉ parser.leavesStacked steps progress := by
  constructor
  · intro terminal empty _ expandable stacked
    have unexpandable : parser.grammar.isNonTerminal empty = false := terminal empty stacked
    rw [expandable] at unexpandable
    cases unexpandable
  · intro absent leaf stacked
    by_cases declared : parser.grammar.emptySymbol = some leaf
    · have unexpandable : ¬ parser.grammar.isNonTerminal leaf = true := fun expandable =>
        absent leaf declared expandable stacked
      exact Bool.eq_false_iff.mpr unexpandable
    · have isTerminal : leaf ∈ parser.grammar.terminals :=
        (mem_leavesStacked accepted stacked).resolve_right declared
      exact (accepted.mem_terminals_iff.mp isTerminal).2.1

/-- Finishing an analysis fails for want of a tree of its derivation only. -/
theorem ofDerivation_of_finish_error {lexemes : List Lexeme} {derivation : Derivation}
    {error : TreeError} (failed : parser.finish lexemes derivation = .error (.tree error)) :
    SyntaxTree.ofDerivation parser.grammar derivation = .error error := by
  rw [finish] at failed
  cases built : SyntaxTree.ofDerivation parser.grammar derivation with
  | error other =>
    rw [built] at failed
    cases failed
    rfl
  | ok tree =>
    rw [built] at failed
    cases failed

/-- Where the empty symbol heads no production, finishing the analysis of what has been parsed does
not fail. -/
theorem finish_ne_error (accepted : parser.Accepted)
    (unexpanded : ∀ empty ∈ parser.grammar.emptySymbol,
      parser.grammar.isNonTerminal empty = false)
    {σ : Type} [Supply σ] {size : Nat} {input rest : σ} {derivation : Derivation}
    (parsedTo : parser.parse size input = (.ok derivation, rest)) (lexemes : List Lexeme)
    (error : TreeError) : parser.finish lexemes derivation ≠ .error (.tree error) := by
  intro failed
  have ended := run_of_parse parsedTo
  have terminal := (isTerminalForm_leavesStacked_iff accepted (parser.stepBound size)
    (parser.initial input)).mpr fun empty declared expandable => by
      rw [unexpanded empty declared] at expandable
      cases expandable
  obtain ⟨tree, built⟩ := (ofDerivation_iff_of_run accepted ended).1.mpr terminal
  rw [ofDerivation_of_finish_error failed] at built
  cases built

/-- A derivation that a run ends with has a tree exactly when the run has not put an empty symbol on
the stack that heads a production. So if the empty symbol of a ruleset heads none, no analysis fails
for want of a tree. -/
theorem derivation_has_tree {ruleset : Ruleset} (made : ofRuleset ruleset = .ok parser) :
    (∀ (σ : Type) [Supply σ] (input rest : σ) (steps : Nat) (derivation : Derivation),
      parser.run steps (parser.initial input) = some (.ok derivation, rest) →
        ((∃ tree, SyntaxTree.ofDerivation parser.grammar derivation = .ok tree) ↔
          ∀ empty ∈ ruleset.empty, parser.grammar.isNonTerminal empty = true →
            empty ∉ parser.leavesStacked steps (parser.initial input))) ∧
    ((∀ empty ∈ ruleset.empty, parser.grammar.isNonTerminal empty = false) →
      (∀ source error, parser.analyze source ≠ .error (.tree error)) ∧
        ∀ word error, parser.analyzeSymbols word ≠ .error (.tree error)) := by
  obtain ⟨accepted, _, isEmpty, _, _, _⟩ := accepted_of_ruleset made
  rw [← isEmpty]
  refine ⟨?_, fun unexpanded => ⟨?_, ?_⟩⟩
  · intro σ _ input rest steps derivation ended
    exact (ofDerivation_iff_of_run accepted ended).1.trans
      (isTerminalForm_leavesStacked_iff accepted steps (parser.initial input))
  · intro source error failed
    rw [analyze] at failed
    cases parsedTo : parser.parse source.length
        (SourceSupply.ofSource source .empty parser.endMarker) with
    | mk outcome final =>
      rw [parsedTo] at failed
      cases outcome with
      | error other => cases failed
      | ok derivation => exact finish_ne_error accepted unexpanded parsedTo _ error failed
  · intro word error failed
    rw [analyzeSymbols, analyzeInput] at failed
    cases parsedTo : parser.parse word.length (SymbolSupply.mk word parser.endMarker) with
    | mk outcome final =>
      rw [parsedTo] at failed
      cases outcome with
      | error other => cases failed
      | ok derivation => exact finish_ne_error accepted unexpanded parsedTo _ error failed

/-- In arithmetic expressions the empty symbol heads no production, though it is put on the
stack. -/
theorem derivation_has_tree_arithmetic :
    ofRuleset .arithmetic = .ok arithmetic ∧
      (∃ derivation rest,
        arithmetic.run 20 (arithmetic.initial (SymbolSupply.mk ["v"] "$")) =
          some (.ok derivation, rest) ∧
        arithmetic.leavesStacked 20 (arithmetic.initial (SymbolSupply.mk ["v"] "$")) =
          ["v", "ε", "ε"] ∧
        ∃ tree, SyntaxTree.ofDerivation arithmetic.grammar derivation = .ok tree) ∧
      (∀ source error, arithmetic.analyze source ≠ .error (.tree error)) ∧
      ∀ word error, arithmetic.analyzeSymbols word ≠ .error (.tree error) := by
  have trees := derivation_has_tree ofRuleset_arithmetic
  have unexpanded : ∀ empty ∈ Ruleset.arithmetic.empty,
      arithmetic.grammar.isNonTerminal empty = false := by decide +kernel
  have isLeaves : arithmetic.leavesStacked 20
      (arithmetic.initial (SymbolSupply.mk ["v"] "$")) = ["v", "ε", "ε"] := by decide +kernel
  have ends : ((arithmetic.run 20 (arithmetic.initial (SymbolSupply.mk ["v"] "$"))).any
      fun ended => ended.1.isOk) = true := by decide +kernel
  refine ⟨ofRuleset_arithmetic, ?_, trees.2 unexpanded⟩
  cases ended : arithmetic.run 20 (arithmetic.initial (SymbolSupply.mk ["v"] "$")) with
  | none =>
    rw [ended] at ends
    cases ends
  | some result =>
    obtain ⟨outcome, rest⟩ := result
    cases outcome with
    | error error =>
      rw [ended] at ends
      cases ends
    | ok derivation =>
      refine ⟨derivation, rest, rfl, isLeaves, ?_⟩
      refine (trees.1 SymbolSupply _ rest 20 derivation ended).mpr ?_
      intro empty declared expandable
      rw [unexpanded empty declared] at expandable
      cases expandable

/-- The parser of `Ruleset.expandedEmpty`. -/
def expandedEmpty : Parser :=
  ofGrammar (Grammar.index Ruleset.expandedEmpty.productions (some "e")) "S" "$"

/-- The ruleset with an empty symbol that can be expanded passes every check. -/
theorem ofRuleset_expandedEmpty : ofRuleset .expandedEmpty = .ok expandedEmpty := by rfl

/-- An empty symbol that heads a production is put on the stack and reduced to the start symbol. The
derivation has a production for the start symbol alone, and no tree. -/
theorem derivation_without_tree :
    ofRuleset .expandedEmpty = .ok expandedEmpty ∧
      (expandedEmpty.parse 0 (SymbolSupply.mk [] "$")).1 = .ok [⟨"S", ["e"]⟩] ∧
      SyntaxTree.ofDerivation expandedEmpty.grammar [⟨"S", ["e"]⟩] = .error (.exhausted "e") ∧
      expandedEmpty.analyzeSymbols [] = .error (.tree (.exhausted "e")) ∧
      expandedEmpty.analyze "" = .error (.tree (.exhausted "e")) := by
  have built : SyntaxTree.ofDerivation expandedEmpty.grammar [⟨"S", ["e"]⟩] =
      .error (.exhausted "e") := by rfl
  have failed : ∀ lexemes, expandedEmpty.finish lexemes [⟨"S", ["e"]⟩] =
      .error (.tree (.exhausted "e")) := fun lexemes => by rw [finish, built]
  have symbolsParsed : (expandedEmpty.parse 0 (SymbolSupply.mk [] "$")).1 =
      .ok [⟨"S", ["e"]⟩] := by decide +kernel
  have sourceParsed : (expandedEmpty.parse "".length
      (SourceSupply.ofSource "" .empty expandedEmpty.endMarker)).1 =
      .ok [⟨"S", ["e"]⟩] := by decide +kernel
  refine ⟨ofRuleset_expandedEmpty, symbolsParsed, built, ?_, ?_⟩
  · show expandedEmpty.analyzeInput 0 (SymbolSupply.mk [] "$") [] = _
    rw [analyzeInput]
    cases parsedTo : expandedEmpty.parse 0 (SymbolSupply.mk [] "$") with
    | mk outcome rest =>
      rw [parsedTo] at symbolsParsed
      subst symbolsParsed
      exact failed []
  · rw [analyze]
    cases parsedTo : expandedEmpty.parse "".length
        (SourceSupply.ofSource "" .empty expandedEmpty.endMarker) with
    | mk outcome rest =>
      rw [parsedTo] at sourceParsed
      subst sourceParsed
      exact failed rest.consumed.toList

end Parser

end Precedence
