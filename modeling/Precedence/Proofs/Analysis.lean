import Precedence.Analysis
import Precedence.Proofs.Lexeme.Source
import Precedence.Proofs.Parser.Completeness
import Precedence.Proofs.Parser.Coverage
import Precedence.Proofs.SyntaxTree.Attachment

/-!
# Exactness of analyses

An analysis of a source succeeds exactly when the source can be read to lexemes and their kinds are
a sentence. It then gives those lexemes, and the leaves of its tree carry them in order. Reading on
demand makes no difference, because a parse that ends with a derivation has pulled the end marker,
which no lexeme stands for.

Whatever the grammar, an analysis that succeeds has everything it was given on its leaves, unless
an element of the input is taken for the end marker.
-/

namespace Precedence

/-- Sequences of names whose end marker is a fragment of sources. -/
def Ruleset.delimited : Ruleset where
  name := none
  start := "S"
  endMarker := ";"
  empty := none
  rules := [⟨"S", ["S id", "id"]⟩]

namespace Parser

variable {parser : Parser}

/-- No lexeme of a source has an end marker that is none of the kinds of fragments. -/
theorem kind_ne_of_not_mem {endMarker : String} (fresh : endMarker ∉ fragmentKinds)
    (lexeme : Lexeme) (classified : lexeme.IsClassified) : lexeme.kind ≠ endMarker := by
  rintro rfl
  exact fresh classified.kind_mem

/-- What the supply of a source has left at its start is what reading the source gives. -/
theorem remaining_ofSource (source endMarker : String) :
    (SourceSupply.ofSource source .empty endMarker).remaining =
      (Lexicon.empty.readSource source).1 :=
  SourceSupply.map_nil_append _

/-- The supply of a source has nothing pending at its start. -/
theorem classified_ofSource (source endMarker : String) :
    (SourceSupply.ofSource source .empty endMarker).Classified :=
  List.forall_mem_nil _

/-- An analysis gives the lexemes that its source is read to. Their kinds are derived from the start
symbol, and they are carried by the leaves of the tree, in order. -/
theorem analyze_sound (accepted : parser.Accepted)
    (noEmpty : parser.grammar.emptySymbol = none) (fresh : parser.endMarker ∉ fragmentKinds)
    {source : String} {analysis : Analysis} (analyzed : parser.analyze source = .ok analysis) :
    (Lexicon.empty.readSource source).1 = .ok analysis.lexemes ∧
      parser.grammar.Derives parser.start analysis.derivation
        (analysis.lexemes.map Lexeme.kind) ∧
      analysis.tree.leaves.map SyntaxTree.symbol = analysis.lexemes.map Lexeme.kind ∧
      analysis.tree.leaves.map SyntaxTree.lexeme? = analysis.lexemes.map some := by
  have unexpanded : ∀ empty ∈ parser.grammar.emptySymbol,
      parser.grammar.isNonTerminal empty = false := by simp [noEmpty]
  have withoutEmpty : ∀ form, parser.grammar.withoutEmpty form = form := by
    simp [Grammar.withoutEmpty, Grammar.isEmptySymbol, noEmpty]
  rw [analyze] at analyzed
  cases parsedTo : parser.parse source.length
      (SourceSupply.ofSource source .empty parser.endMarker) with
  | mk outcome final =>
    cases outcome with
    | error error =>
      rw [parsedTo] at analyzed
      cases analyzed
    | ok derivation =>
      rw [parsedTo] at analyzed
      obtain ⟨⟨leaves, derived, terminal, isRead⟩, unended, last, isEnd, pulled⟩ :=
        derivation_of_run accepted unexpanded (run_of_parse parsedTo)
      rw [withoutEmpty, withoutEmpty] at isRead
      -- The elements read are the lexemes of the source.
      obtain ⟨lookahead, rest, nextPulled, read⟩ := Supply.reads_of_pulls pulled
      obtain ⟨lexemes, isLeft, isElements, isConsumed⟩ :=
        SourceSupply.remaining_of_reads (classified_ofSource source parser.endMarker)
          (fun lexeme _ => kind_ne_of_not_mem fresh lexeme) nextPulled read unended isEnd
      rw [remaining_ofSource] at isLeft
      have consumed : final.consumed.toList = lexemes := isConsumed
      have kinds : leaves = lexemes.map Lexeme.kind := by
        rw [isRead, isElements, Supply.map_kind_lexeme]
      -- The tree of the derivation has them as its leaves.
      obtain ⟨tree, isSymbol, parsed, rfl, isLeaves⟩ :=
        SyntaxTree.exists_tree_of_derivation accepted.toWellFormed derived terminal
      have built := ofDerivation_of_start accepted parsed isSymbol
      simp only [finish, built, consumed, Except.ok.injEq] at analyzed
      subst analyzed
      obtain ⟨symbols, lexemesOf⟩ := tree.attachLexemes_leaves (kinds.symm.trans isLeaves.symm)
      exact ⟨isLeft, ⟨leaves, derived, terminal, (withoutEmpty leaves).trans kinds⟩, symbols,
        lexemesOf⟩

/-- In a weak precedence grammar, a source that is read to lexemes whose kinds have a derivation is
analyzed to that derivation. -/
theorem analyze_complete (weak : parser.WeakPrecedence) (accepted : parser.Accepted)
    (limited : parser.insertionLimit = some parser.grammar.productions.length)
    {source : String} {lexemes : List Lexeme} {derivation : Derivation}
    (read : (Lexicon.empty.readSource source).1 = .ok lexemes)
    (derives : parser.grammar.Derives parser.start derivation (lexemes.map Lexeme.kind)) :
    ∃ tree, parser.analyze source = .ok ⟨lexemes, derivation, tree⟩ := by
  have isLeft := (remaining_ofSource source parser.endMarker).trans read
  obtain ⟨lookahead, rest, final, pulled, isRead, isConsumed⟩ :=
    SourceSupply.reads_remaining isLeft
  have fits : (lexemes.map Element.lexeme).length ≤ source.length := by
    rw [List.length_map]
    exact Lexicon.length_le_of_readSource read
  have parsedTo :=
    weak.parse_eq_of_derives accepted limited ((Supply.map_kind_lexeme lexemes).symm ▸ derives)
      pulled isRead rfl fits
  obtain ⟨leaves, derived, terminal, _⟩ := derives
  obtain ⟨tree, isSymbol, parsed, rfl, _⟩ :=
    SyntaxTree.exists_tree_of_derivation accepted.toWellFormed derived terminal
  have built := ofDerivation_of_start accepted parsed isSymbol
  have consumed : final.consumed.toList = lexemes := isConsumed
  refine ⟨(tree.attachLexemes lexemes).1, ?_⟩
  simp only [analyze, parsedTo, finish, built, consumed]

/-- The parser of the small imperative language analyzes exactly the sources that can be read to
lexemes whose kinds are generated by `<program>`. It gives those lexemes, their kinds are the
frontier of the tree, and the leaves carry them in order. -/
theorem analyze_program_exact (source : String) :
    ofRuleset .program = .ok program ∧
    ((∃ analysis, program.analyze source = .ok analysis) ↔
      ∃ lexemes, (Lexicon.empty.readSource source).1 = .ok lexemes ∧
        program.grammar.Generates "<program>" (lexemes.map Lexeme.kind)) ∧
    ∀ analysis, program.analyze source = .ok analysis →
      (Lexicon.empty.readSource source).1 = .ok analysis.lexemes ∧
      analysis.tree.frontier program.grammar = analysis.lexemes.map Lexeme.kind ∧
      (∀ leaf ∈ analysis.tree.leaves, leaf.lexeme?.isSome = true) ∧
      analysis.tree.leaves.filterMap SyntaxTree.lexeme? = analysis.lexemes := by
  have fresh : program.endMarker ∉ fragmentKinds := by decide
  have weak := weakPrecedence_program
  refine ⟨ofRuleset_program, ⟨?_, ?_⟩, ?_⟩
  · rintro ⟨analysis, analyzed⟩
    obtain ⟨read, derives, _⟩ := analyze_sound accepted_program weak.no_empty fresh analyzed
    exact ⟨analysis.lexemes, read, analysis.derivation, derives⟩
  · rintro ⟨lexemes, read, derivation, derives⟩
    obtain ⟨tree, analyzed⟩ := analyze_complete weak accepted_program rfl read derives
    exact ⟨_, analyzed⟩
  · intro analysis analyzed
    obtain ⟨read, _, symbols, lexemesOf⟩ :=
      analyze_sound accepted_program weak.no_empty fresh analyzed
    refine ⟨read, ?_, ?_, ?_⟩
    · exact (weak.withoutEmpty_eq _).trans symbols
    · intro leaf held
      have carried : leaf.lexeme? ∈ analysis.lexemes.map some :=
        lexemesOf ▸ List.mem_map_of_mem held
      obtain ⟨lexeme, _, isLexeme⟩ := List.mem_map.mp carried
      rw [← isLexeme]
      rfl
    · have mapped : analysis.tree.leaves.filterMap SyntaxTree.lexeme? =
          (analysis.tree.leaves.map SyntaxTree.lexeme?).filterMap id := by
        rw [List.filterMap_map]
        rfl
      rw [mapped, lexemesOf, List.filterMap_map]
      exact List.filterMap_some

/-! ## Nothing is dropped -/

/-- What is finished has a tree of its derivation, with the lexemes attached. -/
theorem finish_ok {lexemes : List Lexeme} {derivation : Derivation} {analysis : Analysis}
    (finished : parser.finish lexemes derivation = .ok analysis) :
    ∃ tree, SyntaxTree.ofDerivation parser.grammar derivation = .ok tree ∧
      analysis.lexemes = lexemes ∧ analysis.tree = (tree.attachLexemes lexemes).1 := by
  rw [finish] at finished
  cases built : SyntaxTree.ofDerivation parser.grammar derivation with
  | error error =>
    rw [built] at finished
    cases finished
  | ok tree =>
    rw [built] at finished
    cases finished
    exact ⟨tree, rfl, rfl, rfl⟩

/-- The leaves of an analysis of symbols are the symbols with empty symbols between. -/
theorem padded_of_analyzeSymbols (accepted : parser.Accepted) {word : List String}
    {analysis : Analysis} (unended : parser.endMarker ∉ word)
    (analyzed : parser.analyzeSymbols word = .ok analysis) :
    parser.grammar.Padded word (analysis.tree.leaves.map SyntaxTree.symbol) := by
  rw [analyzeSymbols, analyzeInput] at analyzed
  cases parsedTo : parser.parse word.length (SymbolSupply.mk word parser.endMarker) with
  | mk outcome final =>
    rw [parsedTo] at analyzed
    cases outcome with
    | error error => cases analyzed
    | ok derivation =>
      obtain ⟨tree, built, _, isTree⟩ := finish_ok analyzed
      obtain ⟨lookahead, rest, last, elements, pulled, read, different, isEnd, parsed, padded⟩ :=
        leaves_of_run accepted (run_of_parse parsedTo) built
      have isWord := Supply.elements_of_reads_symbols unended pulled read different isEnd
      rw [isWord, Supply.map_kind_symbol] at padded
      rw [isTree, (parsed.attachLexemes_leaves accepted.toWellFormed []).1]
      exact padded

/-- An analysis of a source gives all lexemes that the source is read to, and its leaves carry them
in order, if none of the lexemes it gives has the end marker for its kind. -/
theorem lexemes_of_analyze (accepted : parser.Accepted) {source : String} {analysis : Analysis}
    (analyzed : parser.analyze source = .ok analysis)
    (fresh : ∀ lexeme ∈ analysis.lexemes, lexeme.kind ≠ parser.endMarker) :
    (Lexicon.empty.readSource source).1 = .ok analysis.lexemes ∧
      analysis.tree.leaves.filterMap SyntaxTree.lexeme? = analysis.lexemes := by
  rw [analyze] at analyzed
  cases parsedTo : parser.parse source.length
      (SourceSupply.ofSource source .empty parser.endMarker) with
  | mk outcome final =>
    rw [parsedTo] at analyzed
    cases outcome with
    | error error => cases analyzed
    | ok derivation =>
      obtain ⟨tree, built, isLexemes, isTree⟩ := finish_ok analyzed
      obtain ⟨lookahead, rest, last, elements, pulled, read, different, isEnd, parsed, padded⟩ :=
        leaves_of_run accepted (run_of_parse parsedTo) built
      rw [isLexemes] at fresh
      obtain ⟨lexemes, isLeft, rfl, isConsumed⟩ :=
        SourceSupply.remaining_of_reads (classified_ofSource source parser.endMarker)
          (fun lexeme held _ => fresh lexeme held) pulled read different isEnd
      have consumed : final.consumed.toList = lexemes := isConsumed
      rw [Supply.map_kind_lexeme] at padded
      rw [isLexemes, isTree, consumed]
      exact ⟨(remaining_ofSource source parser.endMarker).symm.trans isLeft,
        (parsed.attachLexemes_leaves accepted.toWellFormed lexemes).2 padded.sublist⟩

/-- An analysis drops nothing of an input without the end marker. The symbols of an input are
leaves, in order, and the frontier is what they are without the empty symbol. A source has been read
to the end, and every lexeme of it is carried by a leaf, in order. -/
theorem analysis_drops_nothing {ruleset : Ruleset} (made : ofRuleset ruleset = .ok parser) :
    (∀ word analysis, ruleset.endMarker ∉ word → parser.analyzeSymbols word = .ok analysis →
      word.Sublist (analysis.tree.leaves.map SyntaxTree.symbol) ∧
        analysis.tree.frontier parser.grammar = parser.grammar.withoutEmpty word) ∧
    ∀ source analysis, parser.analyze source = .ok analysis →
      (∀ lexeme ∈ analysis.lexemes, lexeme.kind ≠ ruleset.endMarker) →
        (Lexicon.empty.readSource source).1 = .ok analysis.lexemes ∧
          analysis.tree.leaves.filterMap SyntaxTree.lexeme? = analysis.lexemes := by
  obtain ⟨accepted, _, _, _, isEnd, _⟩ := accepted_of_ruleset made
  rw [← isEnd]
  constructor
  · intro word analysis unended analyzed
    have padded := padded_of_analyzeSymbols accepted unended analyzed
    exact ⟨padded.sublist, padded.same⟩
  · intro source analysis analyzed fresh
    exact lexemes_of_analyze accepted analyzed fresh

/-- The parser of `Ruleset.delimited`. -/
def delimited : Parser :=
  ofGrammar (Grammar.index Ruleset.delimited.productions none) "S" ";"

/-- The ruleset of delimited names passes every check. -/
theorem ofRuleset_delimited : ofRuleset .delimited = .ok delimited := by rfl

/-- Two symbols, and a source of two names, without the end marker among them. -/
theorem analysis_drops_nothing_delimited :
    ofRuleset .delimited = .ok delimited ∧
      (∃ analysis, ";" ∉ ["id", "id"] ∧ delimited.analyzeSymbols ["id", "id"] = .ok analysis ∧
        ["id", "id"].Sublist (analysis.tree.leaves.map SyntaxTree.symbol) ∧
        analysis.tree.frontier delimited.grammar =
          delimited.grammar.withoutEmpty ["id", "id"]) ∧
      ∃ analysis, delimited.analyze "x y" = .ok analysis ∧
        (∀ lexeme ∈ analysis.lexemes, lexeme.kind ≠ ";") ∧
        (Lexicon.empty.readSource "x y").1 = .ok analysis.lexemes ∧
        analysis.tree.leaves.filterMap SyntaxTree.lexeme? = analysis.lexemes := by
  have covers := analysis_drops_nothing ofRuleset_delimited
  have unended : ";" ∉ ["id", "id"] := by decide
  have symbolsParsed : (delimited.analyzeSymbols ["id", "id"]).toOption.isSome = true := by
    decide +kernel
  have sourceParsed : (delimited.analyze "x y").toOption.any
      (fun analysis => analysis.lexemes.all (·.kind ≠ ";")) = true := by
    decide +kernel
  refine ⟨ofRuleset_delimited, ?_, ?_⟩
  · cases analyzed : delimited.analyzeSymbols ["id", "id"] with
    | error error =>
      rw [analyzed] at symbolsParsed
      cases symbolsParsed
    | ok analysis => exact ⟨analysis, unended, rfl, covers.1 _ analysis unended analyzed⟩
  · cases analyzed : delimited.analyze "x y" with
    | error error =>
      rw [analyzed] at sourceParsed
      cases sourceParsed
    | ok analysis =>
      rw [analyzed] at sourceParsed
      have fresh : ∀ lexeme ∈ analysis.lexemes, lexeme.kind ≠ ";" := by
        simpa [Except.toOption] using sourceParsed
      exact ⟨analysis, rfl, fresh, covers.2 "x y" analysis analyzed fresh⟩

/-- The empty symbol in an input is not in the frontier, and what comes after the end marker in an
input is dropped, in symbols as in a source. -/
theorem analysis_drops_after_endMarker :
    ofRuleset .arithmetic = .ok arithmetic ∧
      (arithmetic.analyzeSymbols ["v", "ε", "+", "v"]).toOption.map
        (·.tree.frontier arithmetic.grammar) = some ["v", "+", "v"] ∧
    ofRuleset .delimited = .ok delimited ∧
      (delimited.analyzeSymbols ["id", ";", "id"]).toOption.map
        (·.tree.frontier delimited.grammar) = some ["id"] ∧
      (delimited.analyze "x ; y").toOption.map (fun analysis =>
        (analysis.lexemes.map Lexeme.kind,
          (analysis.tree.leaves.filterMap SyntaxTree.lexeme?).map Lexeme.kind)) =
        some (["id", ";"], ["id"]) ∧
      (Lexicon.empty.readSource "x ; y").1.toOption.map (·.map Lexeme.kind) =
        some ["id", ";", "id"] := by
  refine ⟨ofRuleset_arithmetic, ?_, ofRuleset_delimited, ?_, ?_, ?_⟩
  all_goals decide +kernel

end Parser

end Precedence
