import Precedence.Proofs.Analysis
import Precedence.Proofs.Lexeme.LineByLine
import Precedence.Proofs.Parser.Repetition
import Precedence.Proofs.Parser.Simulation

/-!
# What an analysis depends on

The analysis of a source that can be read depends on the kinds of its lexemes alone: analyzing those
kinds as symbols ends in the same way, at the same place, with the same derivation and the same tree
but for the lexemes attached.

A source that cannot be read is analyzed up to the line that fails. Either the run gets there, and
the analysis fails with the lexical error of that line, or it ends before, and then nothing from
that line on makes a difference.
-/

namespace Precedence

open Text (splitLines)

namespace SourceSupply

variable {source other endMarker : String} {lexicon after : Lexicon} {error : LexicalError}

/-! ## Sources that fail -/

/-- A source ends once each of its characters may have given a lexeme. -/
theorem endsBy_ofSource (source endMarker : String) (lexicon : Lexicon) :
    Supply.EndsBy endMarker source.length (ofSource source lexicon endMarker) := by
  cases read : lexicon.readSource source with
  | mk outcome after =>
    cases outcome with
    | ok lexemes =>
      have ends := (gives_ofSource endMarker read).endsBy
      rw [List.length_map] at ends
      exact ends.mono (Lexicon.length_le_of_readSource (congrArg Prod.fst read))
    | error error =>
      obtain ⟨lexemes, middle, later, above, isOutcomes⟩ :=
        outcomes_of_readSource_error endMarker read
      have fits : lexemes.length ≤ source.length := by
        have bounded := Lexicon.length_le_of_readLines (congrArg Prod.fst above)
        have parts : (splitLines source.toList).flatten.length =
            ((splitLines source.toList).take error.lexeme.line).flatten.length +
              ((splitLines source.toList).drop error.lexeme.line).flatten.length := by
          rw [← List.length_append, ← List.flatten_append, List.take_append_drop]
        have inSource := Lexicon.length_flatten_splitLines source.toList
        rw [String.length_toList] at inSource
        omega
      have ends : Supply.EndsBy endMarker lexemes.length (ofSource source lexicon endMarker) := by
        obtain ⟨given, _, _, _⟩ :=
          pulls_outcomes (lexemes.length + 1) (ofSource source lexicon endMarker)
        refine ⟨.error error, ?_, fun element same => by cases same⟩
        have size : (handedOut (.ok lexemes)).length = lexemes.length := List.length_map _
        rw [given, isOutcomes, List.append_assoc, List.cons_append, ← size,
          List.take_length_add_append, List.take_succ_cons]
        simp
      exact ends.mono fits

/-- Sources with the same lines above one that fails give the same first lexemes, and after them the
source that fails gives its error. -/
theorem pulls_of_same_lines (endMarker : String)
    (failed : lexicon.readSource source = (.error error, after))
    (same : (splitLines other.toList).take error.lexeme.line =
      (splitLines source.toList).take error.lexeme.line) :
    ∃ elements : List Element, ∀ count, ∃ later rest : List (Except LexicalError Element),
      (Supply.pulls count (ofSource source lexicon endMarker)).1 =
          (elements.map Except.ok ++ Except.error error :: later).take count ∧
        (Supply.pulls count (ofSource other lexicon endMarker)).1 =
          (elements.map Except.ok ++ rest).take count := by
  obtain ⟨lexemes, middle, later, above, isOutcomes⟩ :=
    outcomes_of_readSource_error endMarker failed
  have otherOutcomes := outcomes_of_take endMarker (same ▸ above)
  rw [handedOut_ok] at isOutcomes otherOutcomes
  refine ⟨lexemes.map .lexeme, fun count => ?_⟩
  have given := (pulls_outcomes count (ofSource source lexicon endMarker)).1
  have otherGiven := (pulls_outcomes count (ofSource other lexicon endMarker)).1
  rw [isOutcomes, List.append_assoc, List.cons_append] at given
  rw [otherOutcomes, List.append_assoc] at otherGiven
  exact ⟨_, _, given, otherGiven⟩

end SourceSupply

namespace Parser

variable {parser : Parser}

/-- Whether the run on an input refuses an element when it has read so many before. -/
def RefusesAt (parser : Parser) {σ : Type} [Supply σ] (input : σ) (index : Nat)
    (element : Element) : Prop :=
  ∃ steps rest,
    parser.run steps (parser.initial input) = some (.error (.grammatical ⟨element⟩), rest) ∧
      (parser.elementsRead steps (parser.initial input)).length = index

/-- No element that a run reads is the end marker. -/
theorem kind_ne_endMarker_of_read (accepted : parser.Accepted) {σ : Type} [Supply σ] {steps : Nat}
    {progress : Progress σ} :
    ∀ element ∈ parser.elementsRead steps progress, element.kind ≠ parser.endMarker := by
  intro element read isEnd
  have among : element.kind ∈ parser.leavesStacked steps progress :=
    (padded_leavesStacked accepted steps progress).sublist.subset (List.mem_map_of_mem read)
  have isSymbol : element.kind ∈ parser.grammar.symbols := by
    rcases mem_leavesStacked accepted among with isTerminal | isEmpty
    · exact accepted.mem_symbols_of_occurs (accepted.mem_terminals_iff.mp isTerminal).1
    · simp [Grammar.symbols, isEmpty]
  exact accepted.endMarker_not_mem (isEnd ▸ isSymbol)

/-- Finishing with other lexemes fails in the same way, or gives the same tree but for the
lexemes. -/
theorem finish_cases (parser : Parser) (lexemes others : List Lexeme) (derivation : Derivation) :
    (∃ error, parser.finish lexemes derivation = .error (.tree error) ∧
      parser.finish others derivation = .error (.tree error)) ∨
    ∃ analysis second, parser.finish lexemes derivation = .ok analysis ∧
      parser.finish others derivation = .ok second ∧
      analysis.derivation = second.derivation ∧ analysis.tree.erase = second.tree.erase := by
  rw [finish, finish]
  cases SyntaxTree.ofDerivation parser.grammar derivation with
  | error error => exact Or.inl ⟨error, rfl, rfl⟩
  | ok tree =>
    refine Or.inr ⟨_, _, rfl, rfl, rfl, ?_⟩
    have first : (tree.attachLexemes lexemes).1.erase = tree.erase := tree.erase_attach lexemes
    have second : (tree.attachLexemes others).1.erase = tree.erase := tree.erase_attach others
    exact first.trans second.symm

/-! ## Inputs of the same kinds -/

/-- When a run on an input that gives elements ends, it has pulled an element last. -/
theorem endsAt_of_gives {σ : Type} [Supply σ] {input rest : σ} {elements : List Element}
    {endMarker : String} (gives : Supply.Gives input elements endMarker) {steps : Nat}
    {outcome : Except ParseError Derivation}
    (ended : parser.run steps (parser.initial input) = some (outcome, rest)) :
    ∃ element, EndsAt (.ok element) outcome ∧
      (Supply.pulls ((parser.elementsRead steps (parser.initial input)).length + 1) input).1 =
        (parser.elementsRead steps (parser.initial input) ++ [element]).map .ok := by
  obtain ⟨last, endsAt, pulled⟩ := pulls_of_run ended
  have held : last ∈ (Supply.pulls
      ((parser.elementsRead steps (parser.initial input)).length + 1) input).1 := by
    rw [pulled]
    exact List.mem_append_right _ List.mem_cons_self
  rw [gives] at held
  obtain ⟨element, _, rfl⟩ := List.mem_map.mp held
  refine ⟨element, endsAt, ?_⟩
  rw [pulled, List.map_append]
  rfl

/-- An element that is refused in an input that gives elements is the one at its place, or the end
marker after all of them. -/
theorem RefusesAt.element (accepted : parser.Accepted) {σ : Type} [Supply σ] {input : σ}
    {elements : List Element} (gives : Supply.Gives input elements parser.endMarker) {index : Nat}
    {element : Element} (refuses : parser.RefusesAt input index element) :
    elements[index]? = some element ∨
      index = elements.length ∧ element = .symbol parser.endMarker := by
  obtain ⟨steps, rest, ended, rfl⟩ := refuses
  obtain ⟨last, endsAt, upTo⟩ := endsAt_of_gives gives ended
  cases endsAt
  rcases gives.after upTo (kind_ne_endMarker_of_read accepted) with within | ⟨isAll, isMarker⟩
  · exact Or.inl within
  · exact Or.inr ⟨(congrArg List.length isAll).symm, isMarker⟩

/-- Runs on inputs that give elements of the same kinds never end, end with the same derivation, or
refuse the elements at the same place. -/
theorem runs_of_gives (parser : Parser) {σ τ : Type} [Supply σ] [Supply τ] {input : σ} {other : τ}
    {elements others : List Element} {endMarker : String}
    (gives : Supply.Gives input elements endMarker)
    (otherGives : Supply.Gives other others endMarker)
    (kinds : elements.map Element.kind = others.map Element.kind) :
    (parser.RunsForever input ∧ parser.RunsForever other) ∨
    (∃ steps derivation rest remaining,
      parser.run steps (parser.initial input) = some (.ok derivation, rest) ∧
      parser.run steps (parser.initial other) = some (.ok derivation, remaining)) ∨
    ∃ index element second, parser.RefusesAt input index element ∧
      parser.RefusesAt other index second := by
  have inStep : InStep (parser.initial input) (parser.initial other) :=
    inStep_initial (Supply.alike_of_gives gives otherGives kinds)
  by_cases forever : parser.RunsForever input
  · left
    refine ⟨forever, fun steps => ?_⟩
    rcases run_of_inStep inStep steps with ⟨error, rest, failed⟩ | ⟨sameOutcome, _⟩
    · rw [forever] at failed
      cases failed
    · rw [forever] at sameOutcome
      exact Option.map_eq_none_iff.mp sameOutcome.symm
  right
  obtain ⟨steps, isSome⟩ := not_forall.mp forever
  obtain ⟨⟨outcome, rest⟩, ended⟩ := Option.ne_none_iff_exists'.mp isSome
  obtain ⟨element, endsAt, _⟩ := endsAt_of_gives gives ended
  obtain ⟨ending, remaining, otherEnded, same, sameIndex⟩ :=
    run_ends_of_inStep inStep ended endsAt.ne_lexical
  obtain ⟨second, endingAt, _⟩ := endsAt_of_gives otherGives otherEnded
  rcases endsAt.same_way endingAt same with ⟨derivation, rfl, rfl⟩ | ⟨next, isLast, rfl, rfl⟩
  · exact Or.inl ⟨steps, derivation, rest, remaining, ended, otherEnded⟩
  · exact Or.inr ⟨_, element, next, ⟨steps, rest, ended, rfl⟩,
      ⟨steps, remaining, otherEnded, sameIndex⟩⟩

/-! ## Sources of the same kinds -/

/-- How the analysis of a source that can be read compares to the analysis of the kinds of its
lexemes. -/
inductive AnalyzedAlike (parser : Parser) (source : String) (lexemes : List Lexeme) : Prop
  /-- Neither run ends. -/
  | endless
      (first : parser.RunsForever (SourceSupply.ofSource source .empty parser.endMarker))
      (second : parser.RunsForever
        (SymbolSupply.mk (lexemes.map Lexeme.kind) parser.endMarker)) :
      AnalyzedAlike parser source lexemes
  /-- Both give the same derivation, and the same tree but for the lexemes attached. -/
  | built {analysis other : Analysis} (first : parser.analyze source = .ok analysis)
      (second : parser.analyzeSymbols (lexemes.map Lexeme.kind) = .ok other)
      (sameDerivation : analysis.derivation = other.derivation)
      (sameTree : analysis.tree.erase = other.tree.erase) : AnalyzedAlike parser source lexemes
  /-- Both fail for the same want of a tree. -/
  | treeless {error : TreeError} (first : parser.analyze source = .error (.tree error))
      (second : parser.analyzeSymbols (lexemes.map Lexeme.kind) = .error (.tree error)) :
      AnalyzedAlike parser source lexemes
  /-- At the same place, one refuses a lexeme and the other its kind. -/
  | refusedLexeme {index : Nat} {lexeme : Lexeme} (isLexeme : lexemes[index]? = some lexeme)
      (first : parser.analyze source = .error (.parse (.grammatical ⟨.lexeme lexeme⟩)))
      (place : parser.RefusesAt (SourceSupply.ofSource source .empty parser.endMarker) index
        (.lexeme lexeme))
      (second : parser.analyzeSymbols (lexemes.map Lexeme.kind) =
        .error (.parse (.grammatical ⟨.symbol lexeme.kind⟩)))
      (samePlace : parser.RefusesAt
        (SymbolSupply.mk (lexemes.map Lexeme.kind) parser.endMarker) index
        (.symbol lexeme.kind)) : AnalyzedAlike parser source lexemes
  /-- After all lexemes, both refuse the end marker. -/
  | refusedEnd
      (first : parser.analyze source = .error (.parse (.grammatical ⟨.symbol parser.endMarker⟩)))
      (place : parser.RefusesAt (SourceSupply.ofSource source .empty parser.endMarker)
        lexemes.length (.symbol parser.endMarker))
      (second : parser.analyzeSymbols (lexemes.map Lexeme.kind) =
        .error (.parse (.grammatical ⟨.symbol parser.endMarker⟩)))
      (samePlace : parser.RefusesAt
        (SymbolSupply.mk (lexemes.map Lexeme.kind) parser.endMarker) lexemes.length
        (.symbol parser.endMarker)) : AnalyzedAlike parser source lexemes

/-- A source that can be read is analyzed as the kinds of its lexemes are. -/
theorem analyzedAlike_of_readSource (accepted : parser.Accepted)
    (limited : parser.insertionLimit = some parser.grammar.productions.length)
    {source : String} {lexemes : List Lexeme}
    (read : (Lexicon.empty.readSource source).1 = .ok lexemes) :
    parser.AnalyzedAlike source lexemes := by
  have whole : Lexicon.empty.readSource source =
      (.ok lexemes, (Lexicon.empty.readSource source).2) := Prod.ext read rfl
  have gives := SourceSupply.gives_ofSource parser.endMarker whole
  have otherGives := Supply.gives_symbols (lexemes.map Lexeme.kind) parser.endMarker
  have kinds : (lexemes.map Element.lexeme).map Element.kind =
      ((lexemes.map Lexeme.kind).map Element.symbol).map Element.kind := by
    rw [Supply.map_kind_lexeme, Supply.map_kind_symbol]
  have ends := SourceSupply.endsBy_ofSource source parser.endMarker .empty
  have otherEnds := Supply.endsBy_symbols (lexemes.map Lexeme.kind) parser.endMarker
  rcases parser.runs_of_gives gives otherGives kinds with
    forever | ⟨steps, derivation, rest, remaining, ended, otherEnded⟩ |
      ⟨index, element, second, refuses, otherRefuses⟩
  · exact .endless forever.1 forever.2
  · have parsedTo := parse_eq_of_ended accepted limited ends ended
    have otherParsedTo := parse_eq_of_ended accepted limited otherEnds otherEnded
    have analyzed : parser.analyze source = parser.finish rest.consumed.toList derivation := by
      rw [analyze, parsedTo]
    have otherAnalyzed : parser.analyzeSymbols (lexemes.map Lexeme.kind) =
        parser.finish [] derivation := by
      rw [analyzeSymbols, analyzeInput, otherParsedTo]
    rcases parser.finish_cases rest.consumed.toList [] derivation with
      ⟨error, failed, otherFailed⟩ | ⟨analysis, other, built, otherBuilt, sameDerivation, sameTree⟩
    · exact .treeless (analyzed.trans failed) (otherAnalyzed.trans otherFailed)
    · exact .built (analyzed.trans built) (otherAnalyzed.trans otherBuilt) sameDerivation sameTree
  · have refused : parser.analyze source = .error (.parse (.grammatical ⟨element⟩)) := by
      obtain ⟨steps, rest, ended, _⟩ := refuses
      rw [analyze, parse_eq_of_ended accepted limited ends ended]
    have otherRefused : parser.analyzeSymbols (lexemes.map Lexeme.kind) =
        .error (.parse (.grammatical ⟨second⟩)) := by
      obtain ⟨steps, rest, ended, _⟩ := otherRefuses
      rw [analyzeSymbols, analyzeInput, parse_eq_of_ended accepted limited otherEnds ended]
    have isElement := refuses.element accepted gives
    have isSecond := otherRefuses.element accepted otherGives
    rw [List.length_map] at isElement
    rw [List.length_map, List.length_map] at isSecond
    rcases isElement with within | ⟨atEnd, rfl⟩
    · rw [List.getElem?_map] at within
      obtain ⟨lexeme, isLexeme, rfl⟩ := Option.map_eq_some_iff.mp within
      have inside := (List.getElem?_eq_some_iff.mp isLexeme).1
      rcases isSecond with otherWithin | ⟨atEnd, _⟩
      · rw [List.getElem?_map, List.getElem?_map, isLexeme] at otherWithin
        obtain rfl := Option.some.inj otherWithin
        exact .refusedLexeme isLexeme refused refuses otherRefused otherRefuses
      · omega
    · rcases isSecond with otherWithin | ⟨_, rfl⟩
      · have inside := (List.getElem?_eq_some_iff.mp otherWithin).1
        rw [List.length_map, List.length_map] at inside
        omega
      · subst atEnd
        exact .refusedEnd refused refuses otherRefused otherRefuses

/-! ## Sources with the same first lines -/

/-- Elements and one more outcome that begin elements with an error after them begin the elements,
or end with the error. -/
theorem begins_or_error {elements others : List Element} {error : LexicalError}
    {last : Except LexicalError Element} {later : List (Except LexicalError Element)}
    (begins : elements.map Except.ok ++ [last] <+:
      others.map Except.ok ++ Except.error error :: later) :
    (∃ element, last = .ok element ∧ elements ++ [element] <+: others) ∨ last = .error error := by
  induction elements generalizing others with
  | nil =>
    cases others with
    | nil => exact Or.inr (List.cons_prefix_cons.mp begins).1
    | cons first others =>
      have isFirst : last = .ok first := (List.cons_prefix_cons.mp begins).1
      exact Or.inl ⟨first, isFirst, List.cons_prefix_cons.mpr ⟨rfl, List.nil_prefix⟩⟩
  | cons element elements ih =>
    cases others with
    | nil => cases (List.cons_prefix_cons.mp begins).1
    | cons first others =>
      obtain ⟨isFirst, more⟩ := List.cons_prefix_cons.mp begins
      cases isFirst
      rcases ih more with ⟨next, isNext, earlier⟩ | isError
      · exact Or.inl ⟨next, isNext, List.cons_prefix_cons.mpr ⟨rfl, earlier⟩⟩
      · exact Or.inr isError

/-- A run that ends on a source that fails ends with the error, or ends in the same way, with the
same lexemes consumed, on every source with the same lines above the one that fails. -/
theorem run_of_same_lines {source other : String} {after : Lexicon} {error : LexicalError}
    (failed : Lexicon.empty.readSource source = (.error error, after))
    (same : (splitLines other.toList).take error.lexeme.line =
      (splitLines source.toList).take error.lexeme.line)
    {steps : Nat} {outcome : Except ParseError Derivation} {rest : SourceSupply}
    (ended : parser.run steps
      (parser.initial (SourceSupply.ofSource source .empty parser.endMarker)) =
        some (outcome, rest)) :
    outcome = .error (.lexical error) ∨
      ∃ remaining, parser.run steps
          (parser.initial (SourceSupply.ofSource other .empty parser.endMarker)) =
            some (outcome, remaining) ∧
        remaining.consumed = rest.consumed := by
  obtain ⟨elements, given⟩ := SourceSupply.pulls_of_same_lines parser.endMarker failed same
  have alike : Supply.Alike (SourceSupply.ofSource source .empty parser.endMarker)
      (SourceSupply.ofSource other .empty parser.endMarker) := by
    intro count
    obtain ⟨later, others, isGiven, isOther⟩ := given count
    rw [isGiven, isOther]
    exact (Supply.SameKinds.append rfl .error).take count
  have inStep : InStep
      (parser.initial (SourceSupply.ofSource source .empty parser.endMarker))
      (parser.initial (SourceSupply.ofSource other .empty parser.endMarker)) :=
    inStep_initial alike
  obtain ⟨last, endsAt, pulled⟩ := pulls_of_run ended
  obtain ⟨later, others, isGiven, isOther⟩ := given ((parser.elementsRead steps
    (parser.initial (SourceSupply.ofSource source .empty parser.endMarker))).length + 1)
  rw [pulled] at isGiven
  rcases begins_or_error (isGiven ▸ List.take_prefix _ _) with ⟨element, isLast, earlier⟩ | isLast
  · right
    subst isLast
    obtain ⟨ending, remaining, otherEnded, sameEnding, sameIndex⟩ :=
      run_ends_of_inStep inStep ended endsAt.ne_lexical
    obtain ⟨second, endingAt, otherPulled⟩ := pulls_of_run otherEnded
    rw [sameIndex] at otherPulled
    -- What has been pulled from both sources is the same.
    have isPrefix := (earlier.map Except.ok).trans (List.prefix_append _ others)
    have samePulled := List.prefix_iff_eq_take.mp isPrefix
    rw [List.length_map, List.length_append, List.length_singleton, ← isOther, otherPulled,
      List.map_append] at samePulled
    have isSecond : Except.ok element = second :=
      (List.cons.inj (List.append_inj' samePulled rfl).2).1
    subst isSecond
    have sameConsumed : remaining.consumed = rest.consumed := by
      have consumed := SourceSupply.consumed_of_pulls
        ((congrArg Prod.fst otherPulled).trans (samePulled.symm.trans
          (congrArg Prod.fst pulled).symm)) rfl
      rwa [otherPulled, pulled] at consumed
    rcases endsAt.same_way endingAt sameEnding with
      ⟨derivation, rfl, rfl⟩ | ⟨next, isNext, rfl, rfl⟩
    · exact ⟨remaining, otherEnded, sameConsumed⟩
    · cases isNext
      exact ⟨remaining, otherEnded, sameConsumed⟩
  · left
    subst isLast
    cases endsAt
    rfl

/-- The analysis of a source that fails, if its run ends, fails with the error of the source or is
the analysis of every source with the same lines above the one that fails. -/
theorem analyze_same_lines (accepted : parser.Accepted)
    (limited : parser.insertionLimit = some parser.grammar.productions.length)
    {source : String} {error : LexicalError}
    (failed : (Lexicon.empty.readSource source).1 = .error error)
    (ends : ¬ parser.RunsForever (SourceSupply.ofSource source .empty parser.endMarker)) :
    parser.analyze source = .error (.parse (.lexical error)) ∨
      ∀ other : String, (splitLines other.toList).take error.lexeme.line =
          (splitLines source.toList).take error.lexeme.line →
        parser.analyze other = parser.analyze source := by
  have whole : Lexicon.empty.readSource source =
      (.error error, (Lexicon.empty.readSource source).2) := Prod.ext failed rfl
  rcases parse_cases accepted limited
      (SourceSupply.endsBy_ofSource source parser.endMarker .empty) with
    ⟨forever, _⟩ | ⟨steps, ended⟩
  · exact absurd forever ends
  cases parsedTo : parser.parse source.length
      (SourceSupply.ofSource source .empty parser.endMarker) with
  | mk outcome rest =>
    rw [parsedTo] at ended
    by_cases isError : outcome = .error (.lexical error)
    · left
      rw [analyze, parsedTo, isError]
    · right
      intro other same
      obtain ⟨remaining, otherEnded, sameConsumed⟩ :=
        (run_of_same_lines whole same ended).resolve_left isError
      have otherParsedTo := parse_eq_of_ended accepted limited
        (SourceSupply.endsBy_ofSource other parser.endMarker .empty) otherEnded
      rw [analyze, analyze, parsedTo, otherParsedTo]
      cases outcome with
      | error problem => rfl
      | ok derivation => simp only [sameConsumed]

/-- The analysis of a source that can be read depends on the kinds of its lexemes alone, but for the
lexemes it attaches. The analysis of a source that fails, if it ends, fails with the error of the
source or does not depend on the line that fails and those below. -/
theorem analysis_dependence {ruleset : Ruleset} (made : ofRuleset ruleset = .ok parser) :
    (∀ source lexemes, (Lexicon.empty.readSource source).1 = .ok lexemes →
      parser.AnalyzedAlike source lexemes) ∧
    ∀ source error, (Lexicon.empty.readSource source).1 = .error error →
      ¬ parser.RunsForever (SourceSupply.ofSource source .empty parser.endMarker) →
        parser.analyze source = .error (.parse (.lexical error)) ∨
          ∀ other : String, (splitLines other.toList).take error.lexeme.line =
              (splitLines source.toList).take error.lexeme.line →
            parser.analyze other = parser.analyze source := by
  obtain ⟨accepted, _, _, _, _, limited⟩ := accepted_of_ruleset made
  exact ⟨fun source lexemes read => analyzedAlike_of_readSource accepted limited read,
    fun source error failed ends => analyze_same_lines accepted limited failed ends⟩

/-- Two names are analyzed as their kinds are. A source that fails on its second line is analyzed as
any source with the same first line, because the end marker on that line ends the run. -/
theorem analysis_dependence_delimited :
    ofRuleset .delimited = .ok delimited ∧
      (∃ lexemes analysis other, (Lexicon.empty.readSource "x y").1 = .ok lexemes ∧
        delimited.analyze "x y" = .ok analysis ∧
        delimited.analyzeSymbols (lexemes.map Lexeme.kind) = .ok other ∧
        analysis.derivation = other.derivation ∧ analysis.tree.erase = other.tree.erase) ∧
      ∃ error, (Lexicon.empty.readSource "x ;\n@").1 = .error error ∧
        ¬ delimited.RunsForever (SourceSupply.ofSource "x ;\n@" .empty delimited.endMarker) ∧
        ∀ other : String, (splitLines other.toList).take error.lexeme.line =
            (splitLines "x ;\n@".toList).take error.lexeme.line →
          delimited.analyze other = delimited.analyze "x ;\n@" := by
  have depends := analysis_dependence ofRuleset_delimited
  have sourceRead : (Lexicon.empty.readSource "x y").1.isOk = true := by decide +kernel
  have sourceEnds : (delimited.run 20 (delimited.initial
      (SourceSupply.ofSource "x y" .empty delimited.endMarker))).isSome = true := by
    decide +kernel
  have sourceParsed : (delimited.analyze "x y").isOk = true := by decide +kernel
  have otherRead : (Lexicon.empty.readSource "x ;\n@").1.isOk = false := by decide +kernel
  have otherEnds : (delimited.run 20 (delimited.initial
      (SourceSupply.ofSource "x ;\n@" .empty delimited.endMarker))).isSome = true := by
    decide +kernel
  have otherParsed : (delimited.analyze "x ;\n@").isOk = true := by decide +kernel
  refine ⟨ofRuleset_delimited, ?_, ?_⟩
  · cases read : (Lexicon.empty.readSource "x y").1 with
    | error error =>
      rw [read] at sourceRead
      cases sourceRead
    | ok lexemes =>
      cases depends.1 "x y" lexemes read with
      | endless forever =>
        rw [forever] at sourceEnds
        cases sourceEnds
      | built first second sameDerivation sameTree =>
        exact ⟨lexemes, _, _, rfl, first, second, sameDerivation, sameTree⟩
      | treeless failed =>
        rw [failed] at sourceParsed
        cases sourceParsed
      | refusedLexeme _ failed =>
        rw [failed] at sourceParsed
        cases sourceParsed
      | refusedEnd failed =>
        rw [failed] at sourceParsed
        cases sourceParsed
  · cases read : (Lexicon.empty.readSource "x ;\n@").1 with
    | ok lexemes =>
      rw [read] at otherRead
      cases otherRead
    | error error =>
      have ends : ¬ delimited.RunsForever
          (SourceSupply.ofSource "x ;\n@" .empty delimited.endMarker) := by
        intro forever
        rw [forever] at otherEnds
        cases otherEnds
      refine ⟨error, rfl, ends, ?_⟩
      rcases depends.2 "x ;\n@" error read ends with failed | independent
      · rw [failed] at otherParsed
        cases otherParsed
      · exact independent

end Parser

end Precedence
