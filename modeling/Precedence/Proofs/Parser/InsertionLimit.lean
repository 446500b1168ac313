import Precedence.Parser.Trace
import Precedence.Proofs.Parser.Repetition
import Precedence.Proofs.Parser.Soundness

/-!
# The limit on empty symbols

A parser makes the same steps as the parser without its limit until an empty symbol would exceed
the limit; there it refuses the element that comes next. So it parses an input exactly when the
parser without limit does and no run of insertions on the way is longer than the limit. The limit
does refuse sentences: the number of constituents that end at one place, each with an empty symbol
of its own, is not bounded by the grammar.
-/

namespace Precedence

/-- Sentences in which every `a` encloses a sentence and an empty piece after it, so that the empty
pieces all stand at the end. -/
def Ruleset.enclosing : Ruleset where
  name := none
  start := "S"
  endMarker := "$"
  empty := some "ε"
  rules := [⟨"S", ["a S F", "b"]⟩, ⟨"F", ["ε"]⟩]

namespace Parser

variable {parser : Parser}

/-- The handle does not depend on the limit. -/
theorem findHandle_withoutLimit (parser : Parser) (stack : List Element) (length : Nat) :
    parser.withoutLimit.findHandle stack length = parser.findHandle stack length := by
  induction length with
  | zero => rfl
  | succ length ih =>
    rw [findHandle, findHandle, ih]
    rfl

variable {σ : Type} [Supply σ]

/-! ## Steps with and without the limit -/

/-- A step without limit is the same step, unless it exceeds the limit. -/
theorem step_withoutLimit {limit : Nat} (limited : parser.insertionLimit = some limit)
    (configuration : Configuration σ) :
    parser.withoutLimit.step configuration = parser.step configuration ∨
      ∃ empty, parser.nextMove configuration = .insert empty ∧
        limit ≤ configuration.insertions ∧
        parser.step configuration = reject configuration := by
  have sameMove : parser.withoutLimit.nextMove configuration = parser.nextMove configuration := rfl
  cases isMove : parser.nextMove configuration with
  | read =>
    left
    rw [step, step, sameMove, isMove]
    rfl
  | reduce =>
    left
    simp only [step, sameMove, isMove, reduce, findHandle_withoutLimit]
    rfl
  | reject =>
    left
    rw [step, step, sameMove, isMove]
  | insert empty =>
    by_cases exceeded : limit < configuration.insertions + 1
    · right
      refine ⟨empty, rfl, Nat.le_of_lt_succ exceeded, ?_⟩
      have isOver : ∃ limit ∈ parser.insertionLimit, limit < configuration.insertions + 1 :=
        ⟨limit, limited, exceeded⟩
      simp only [step, isMove, insertEmpty, if_pos isOver]
    · left
      have within : ¬ ∃ limit ∈ parser.insertionLimit, limit < configuration.insertions + 1 := by
        rintro ⟨other, declared, isOver⟩
        rw [limited] at declared
        cases declared
        exact exceeded isOver
      have unlimited : ¬ ∃ limit ∈ parser.withoutLimit.insertionLimit,
          limit < configuration.insertions + 1 := by
        rintro ⟨other, declared, _⟩
        cases declared
      simp only [step, sameMove, isMove, insertEmpty, if_neg within, if_neg unlimited]
      rfl

/-- A run that ends with a derivation ends with it without limit too. -/
theorem run_withoutLimit {limit : Nat} (limited : parser.insertionLimit = some limit)
    {steps : Nat} {progress : Progress σ} {derivation : Derivation} {rest : σ}
    (ended : parser.run steps progress = some (.ok derivation, rest)) :
    parser.withoutLimit.run steps progress = some (.ok derivation, rest) := by
  induction steps generalizing progress with
  | zero =>
    cases progress with
    | finished => exact ended
    | running => cases ended
  | succ steps ih =>
    cases progress with
    | finished => exact ended
    | running configuration =>
      rw [run] at ended ⊢
      rcases step_withoutLimit limited configuration with same | ⟨_, _, _, refused⟩
      · rw [same]
        exact ih ended
      · rw [refused] at ended
        cases steps <;> cases ended

/-! ## Configurations that a run reaches -/

/-- A step that goes on is a transition. -/
theorem transition_of_step {configuration next : Configuration σ}
    (stepped : parser.step configuration = .running next) :
    parser.Transition configuration next := by
  rcases parser.step_cases configuration with ⟨other, transition⟩ | ⟨error, rest, failed⟩
  · rw [transition.step_eq, settle] at stepped
    split at stepped
    · cases stepped
    · cases stepped
      exact transition
  · rw [failed] at stepped
    cases stepped

/-- A run starts with an empty stack and nothing inserted. -/
theorem initial_running {input : σ} {configuration : Configuration σ}
    (started : parser.initial input = .running configuration) :
    configuration.stack = [] ∧ configuration.insertions = 0 := by
  cases pulled : Supply.next input with
  | mk first rest =>
    cases first with
    | error error =>
      rw [initial_error pulled] at started
      cases started
    | ok lookahead =>
      have unaccepted : parser.accepts (opening lookahead rest).stack lookahead = false := rfl
      rw [initial_eq pulled, settle_of_not_accepts unaccepted] at started
      cases started
      exact ⟨rfl, rfl⟩

/-- A transition leaves an element on the stack. -/
theorem Transition.stack_ne_nil {configuration next : Configuration σ}
    (transition : parser.Transition configuration next) : next.stack ≠ [] := by
  cases transition <;> exact List.cons_ne_nil _ _

/-- While the stack is empty nothing has been inserted. -/
theorem insertions_eq_zero_of_reaches {input : σ} {moves : List Move}
    {configuration : Configuration σ} (reached : parser.Reaches input moves configuration)
    (isEmpty : configuration.stack = []) : configuration.insertions = 0 := by
  cases reached with
  | start started => exact (initial_running started).2
  | step _ stepped => exact absurd isEmpty (transition_of_step stepped).stack_ne_nil

/-- A run never exceeds its limit. -/
theorem insertions_le_of_reaches {limit : Nat} (limited : parser.insertionLimit = some limit)
    {input : σ} {moves : List Move} {configuration : Configuration σ}
    (reached : parser.Reaches input moves configuration) : configuration.insertions ≤ limit := by
  induction reached with
  | start started =>
    rw [(initial_running started).2]
    exact Nat.zero_le _
  | step _ stepped ih =>
    cases transition_of_step stepped with
    | read => exact Nat.zero_le _
    | reduce => exact ih
    | insert _ allowed => exact allowed limit limited

/-- A run that ends with a derivation reaches whatever it reaches without limit. -/
theorem reaches_of_withoutLimit {limit : Nat} (limited : parser.insertionLimit = some limit)
    {input rest : σ} {steps : Nat} {derivation : Derivation}
    (ended : parser.run steps (parser.initial input) = some (.ok derivation, rest))
    {moves : List Move} {configuration : Configuration σ}
    (reached : parser.withoutLimit.Reaches input moves configuration) :
    parser.Reaches input moves configuration := by
  induction reached with
  | start started => exact .start started
  | @step moves configuration next _ stepped ih =>
    rcases step_withoutLimit limited configuration with same | ⟨_, _, _, refused⟩
    · rw [same] at stepped
      exact .step ih stepped
    · -- The run would have ended with an error here.
      have goesOn := run_of_reaches ih 1
      rw [run, refused] at goesOn
      have outcome := run_unique ended goesOn
      cases outcome

/-- Without limit, a run that inserts no more than the limit allows is a run with it. -/
theorem run_of_withoutLimit {limit : Nat} (limited : parser.insertionLimit = some limit)
    (positive : 0 < limit) {input : σ}
    (within : ∀ moves (configuration : Configuration σ),
      parser.withoutLimit.Reaches input moves configuration → configuration.insertions ≤ limit)
    {steps : Nat} {moves : List Move} {configuration : Configuration σ}
    (reached : parser.withoutLimit.Reaches input moves configuration)
    {outcome : Except ParseError Derivation × σ}
    (ended : parser.withoutLimit.run steps (.running configuration) = some outcome) :
    parser.run steps (.running configuration) = some outcome := by
  induction steps generalizing moves configuration with
  | zero => cases ended
  | succ steps ih =>
    rw [run] at ended ⊢
    have same : parser.step configuration = parser.withoutLimit.step configuration := by
      rcases step_withoutLimit limited configuration with same | ⟨empty, isMove, atLimit, _⟩
      · exact same.symm
      · -- An insertion that exceeds the limit leads to a configuration that is reached.
        have inserted : parser.withoutLimit.Transition configuration
            { configuration with
              stack := .symbol empty :: configuration.stack
              insertions := configuration.insertions + 1 } :=
          .insert isMove fun other declared => by cases declared
        have unaccepted : parser.withoutLimit.accepts (.symbol empty :: configuration.stack)
            configuration.lookahead = false := by
          cases isStack : configuration.stack with
          | nil =>
            have none := insertions_eq_zero_of_reaches reached isStack
            omega
          | cons top beneath => rfl
        have stepped := inserted.step_eq
        rw [settle_of_not_accepts unaccepted] at stepped
        have exceeds := within _ _ (.step reached stepped)
        have : configuration.insertions + 1 ≤ limit := exceeds
        omega
    rw [same]
    cases stepped : parser.withoutLimit.step configuration with
    | finished outcome rest =>
      rw [stepped] at ended
      cases steps <;> exact ended
    | running next =>
      rw [stepped] at ended
      exact ih (.step reached stepped) ended

/-! ## What the limit refuses -/

/-- The parser of a ruleset has a production, so its limit leaves room for an empty symbol. -/
theorem productions_length_pos (accepted : parser.Accepted) :
    0 < parser.grammar.productions.length := by
  obtain ⟨production, declared, _⟩ :=
    accepted.isNonTerminal_iff.mp accepted.start_isNonTerminal
  exact List.length_pos_of_mem declared

/-- Symbols are parsed to a derivation exactly when the parser without limit accepts them with it
and never puts more empty symbols on the stack between two elements read than there are
productions. -/
theorem parse_ok_iff_withoutLimit {ruleset : Ruleset} (made : ofRuleset ruleset = .ok parser)
    (word : List String) (derivation : Derivation) :
    (parser.parse word.length (SymbolSupply.mk word ruleset.endMarker)).1 = .ok derivation ↔
      (∃ steps rest,
        parser.withoutLimit.run steps
            (parser.withoutLimit.initial (SymbolSupply.mk word ruleset.endMarker)) =
          some (.ok derivation, rest)) ∧
      ∀ moves (configuration : Configuration SymbolSupply),
        parser.withoutLimit.Reaches (SymbolSupply.mk word ruleset.endMarker) moves
            configuration →
          configuration.insertions ≤ parser.grammar.productions.length := by
  obtain ⟨accepted, _, _, _, isEnd, limited⟩ := accepted_of_ruleset made
  rw [← isEnd]
  have sameStart : parser.withoutLimit.initial (SymbolSupply.mk word parser.endMarker) =
      parser.initial (SymbolSupply.mk word parser.endMarker) := rfl
  constructor
  · intro parsed
    have ended := run_of_parse (Prod.ext parsed rfl)
    refine ⟨⟨_, _, sameStart ▸ run_withoutLimit limited ended⟩, ?_⟩
    intro moves configuration reached
    exact insertions_le_of_reaches limited (reaches_of_withoutLimit limited ended reached)
  · rintro ⟨⟨steps, rest, ended⟩, within⟩
    have endedWithin : parser.run steps
        (parser.initial (SymbolSupply.mk word parser.endMarker)) =
          some (.ok derivation, rest) := by
      cases started : parser.withoutLimit.initial (SymbolSupply.mk word parser.endMarker) with
      | finished outcome final =>
        rw [started] at ended
        rw [← sameStart, started]
        cases steps <;> exact ended
      | running configuration =>
        rw [started] at ended
        rw [← sameStart, started]
        exact run_of_withoutLimit limited (productions_length_pos accepted) within
          (.start started) ended
    have ends := Supply.endsBy_symbols word parser.endMarker
    rw [parse_eq_of_ended accepted limited ends endedWithin]

/-- The parser of `Ruleset.enclosing`. -/
def enclosing : Parser :=
  ofGrammar (Grammar.index Ruleset.enclosing.productions (some "ε")) "S" "$"

/-- The ruleset of enclosing pieces passes every check. -/
theorem ofRuleset_enclosing : ofRuleset .enclosing = .ok enclosing := by rfl

/-- The rightmost derivation of so many `a` and a `b`. -/
def enclosingDerivation (depth : Nat) : Derivation :=
  (List.replicate depth [⟨"S", ["a", "S", "F"]⟩, ⟨"F", ["ε"]⟩]).flatten ++ [⟨"S", ["b"]⟩]

/-- Three empty symbols at the end of a sentence are as many as three productions allow. -/
theorem parse_ok_iff_withoutLimit_enclosing :
    ofRuleset .enclosing = .ok enclosing ∧
      (∃ steps rest,
        enclosing.withoutLimit.run steps
            (enclosing.withoutLimit.initial (SymbolSupply.mk ["a", "a", "a", "b"] "$")) =
          some (.ok (enclosingDerivation 3), rest)) ∧
      ∀ moves (configuration : Configuration SymbolSupply),
        enclosing.withoutLimit.Reaches (SymbolSupply.mk ["a", "a", "a", "b"] "$") moves
            configuration →
          configuration.insertions ≤ 3 := by
  have parsed : (enclosing.parse 4 (SymbolSupply.mk ["a", "a", "a", "b"] "$")).1 =
      .ok (enclosingDerivation 3) := by decide +kernel
  have unlimited := (parse_ok_iff_withoutLimit ofRuleset_enclosing ["a", "a", "a", "b"]
    (enclosingDerivation 3)).mp parsed
  exact ⟨ofRuleset_enclosing, unlimited⟩

/-- The limit refuses a sentence that needs a fourth empty symbol at its end, and that is parsed
without limit. -/
theorem limit_refuses_sentence :
    let input := SymbolSupply.mk ["a", "a", "a", "a", "b"] "$"
    ofRuleset .enclosing = .ok enclosing ∧
      (∃ rest, enclosing.withoutLimit.run 20 (enclosing.withoutLimit.initial input) =
        some (.ok (enclosingDerivation 4), rest)) ∧
      (enclosing.parse 5 input).1 = .error (.grammatical ⟨.symbol "$"⟩) := by
  intro input
  refine ⟨ofRuleset_enclosing, ⟨⟨[], "$"⟩, ?_⟩, ?_⟩
  · decide +kernel
  · decide +kernel

end Parser

end Precedence
