import Precedence.Proofs.Parser.WeakPrecedence

/-!
# Completeness of parsing

The parser of a weak precedence grammar has a plan, so it parses every sentence to its derivation.
As a parse has one outcome, a sentence has no other derivation, and one parse tree.
-/

namespace Precedence.Parser

variable {parser : Parser} {σ : Type} [Supply σ]

/-- An input whose kinds have a derivation in a weak precedence grammar is parsed to it. -/
theorem WeakPrecedence.parse_eq_of_derives (weak : parser.WeakPrecedence)
    (accepted : parser.Accepted)
    (limited : parser.insertionLimit = some parser.grammar.productions.length)
    {derivation : Derivation} {size : Nat} {input rest final : σ} {lookahead last : Element}
    {elements : List Element}
    (derives : parser.grammar.Derives parser.start derivation (elements.map Element.kind))
    (pulled : Supply.next input = (.ok lookahead, rest))
    (read : Supply.Reads lookahead rest elements last final)
    (isEnd : last.kind = parser.endMarker) (fits : elements.length ≤ size) :
    parser.parse size input = (.ok derivation, final) :=
  (weak.plan accepted).parse_eq_of_derives accepted (by simp [weak.no_empty]) weak.acyclic limited
    derives pulled read isEnd fits

/-- Every sentence of a weak precedence grammar is parsed to its derivation. So it has no other
derivation, and all its parse trees are the tree of that derivation. -/
theorem parse_complete {ruleset : Ruleset} (made : ofRuleset ruleset = .ok parser)
    (weak : parser.WeakPrecedence) {derivation : Derivation} {word : List String}
    (derived : parser.grammar.RightmostDerivation [ruleset.start] derivation word)
    (terminal : parser.grammar.IsTerminalForm word) {size : Nat} (fits : word.length ≤ size) :
    parser.parse size (SymbolSupply.mk word ruleset.endMarker) =
        (.ok derivation, ⟨[], ruleset.endMarker⟩) ∧
      (∀ other, parser.grammar.RightmostDerivation [ruleset.start] other word →
        other = derivation) ∧
      ∀ tree : SyntaxTree, tree.IsParseTree parser.grammar → tree.symbol = ruleset.start →
        tree.leaves.map SyntaxTree.symbol = word →
          SyntaxTree.ofDerivation parser.grammar derivation = .ok tree := by
  obtain ⟨accepted, _, _, isStart, isEnd, limited⟩ := accepted_of_ruleset made
  rw [← isStart] at derived ⊢
  rw [← isEnd]
  obtain ⟨lookahead, rest, pulled, read⟩ := Supply.reads_symbols word parser.endMarker
  have parsesAs : ∀ other, parser.grammar.RightmostDerivation [parser.start] other word →
      parser.parse size (SymbolSupply.mk word parser.endMarker) =
        (.ok other, ⟨[], parser.endMarker⟩) := by
    intro other otherDerived
    have derives : parser.grammar.Derives parser.start other
        ((word.map Element.symbol).map Element.kind) :=
      ⟨word, otherDerived, terminal,
        (weak.withoutEmpty_eq word).trans (Supply.map_kind_symbol word).symm⟩
    exact weak.parse_eq_of_derives accepted limited derives pulled read rfl (by simpa using fits)
  have parsed := parsesAs derivation derived
  refine ⟨parsed, ?_, ?_⟩
  · intro other otherDerived
    have same := (parsesAs other otherDerived).symm.trans parsed
    exact Except.ok.inj (Prod.mk.inj same).1
  · intro tree isTree isSymbol isLeaves
    have spelled := isTree.rightmostDerivation accepted.toWellFormed
    rw [isSymbol, isLeaves] at spelled
    have same := (parsesAs tree.derivation spelled).symm.trans parsed
    rw [← Except.ok.inj (Prod.mk.inj same).1]
    exact ofDerivation_of_start accepted isTree isSymbol

/-- A sentence of the small imperative language has one derivation and is parsed to it. -/
theorem parse_complete_program :
    let word := ["vars", "id", ":", "int", ";", "begin", "return", "id", ";", "end"]
    let derivation : Derivation := [
      ⟨"<program>", ["vars", "<declarations>", "begin", "<statements>", "end"]⟩,
      ⟨"<statements>", ["<statement>"]⟩, ⟨"<statement>", ["return", "<expression>", ";"]⟩,
      ⟨"<expression>", ["<term>"]⟩, ⟨"<term>", ["<factor>"]⟩, ⟨"<factor>", ["id"]⟩,
      ⟨"<declarations>", ["<declaration>"]⟩, ⟨"<declaration>", ["id", ":", "<type>", ";"]⟩,
      ⟨"<type>", ["int"]⟩]
    program.WeakPrecedence ∧
      program.grammar.RightmostDerivation ["<program>"] derivation word ∧
      program.parse 10 (SymbolSupply.mk word "$") = (.ok derivation, ⟨[], "$"⟩) ∧
      ∀ other, program.grammar.RightmostDerivation ["<program>"] other word →
        other = derivation := by
  intro word derivation
  have run : program.run 30 (program.initial (SymbolSupply.mk word "$")) =
        some (.ok derivation, ⟨[], "$"⟩) ∧
      (program.elementsRead 30 (program.initial (SymbolSupply.mk word "$"))).map Element.kind =
        word := by
    decide +kernel
  obtain ⟨ended, isRead⟩ := run
  obtain ⟨⟨leaves, derived, terminal, isLeaves⟩, _⟩ :=
    derivation_of_run accepted_program (fun _ declared => nomatch declared) ended
  rw [weakPrecedence_program.withoutEmpty_eq, weakPrecedence_program.withoutEmpty_eq,
    isRead] at isLeaves
  rw [isLeaves] at derived terminal
  obtain ⟨parsed, unique, _⟩ :=
    parse_complete ofRuleset_program weakPrecedence_program derived terminal (Nat.le_refl 10)
  exact ⟨weakPrecedence_program, derived, parsed, unique⟩

end Precedence.Parser
