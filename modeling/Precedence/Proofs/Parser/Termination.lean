import Precedence.Proofs.Grammar.UnitStep
import Precedence.Proofs.Parser.Bundled
import Precedence.Proofs.Parser.Stack

/-!
# Termination of parsing

Every element put on the stack pays in advance for the reductions that it can take part in. Reading
an element or inserting the empty symbol uses up one of the pushes that are left, a reduction of
several symbols lowers the stack, and a reduction of a single symbol lowers its rank among unit
steps. A potential that weighs these three falls with every transition, so a run ends within
`runBound` steps.
-/

namespace Precedence.Parser

variable {parser : Parser} {σ : Type}

/-- How many elements can still be put on the stack when so many can be read: the elements
themselves, as many empty symbols as the limit allows for each of them and before the first of
them, less those inserted already. -/
def pushesLeft (limit reads insertions : Nat) : Nat :=
  reads + limit * reads + (limit - insertions)

/-- The rank of the top of a stack among unit steps. -/
noncomputable def topRank (parser : Parser) : List Element → Nat
  | [] => 0
  | top :: _ => parser.grammar.unitRank top.kind

/-- The weight of so many pushes left, a stack of some height and a rank of its top. A push weighs
twice as much as an element of the stack, and an element more than any rank. -/
def weight (parser : Parser) (pushes height rank : Nat) : Nat :=
  2 * (parser.grammar.nonTerminals.length + 1) * pushes +
    (parser.grammar.nonTerminals.length + 1) * height + rank

/-- What is left to do in a configuration from which so many elements can be read. -/
noncomputable def potential (parser : Parser) (limit reads : Nat)
    (configuration : Configuration σ) : Nat :=
  parser.weight (pushesLeft limit reads configuration.insertions) configuration.stack.length
    (parser.topRank configuration.stack)

/-- A number of steps within which a run ends when so many elements can be read. -/
def runBound (parser : Parser) (limit reads : Nat) : Nat :=
  2 * (reads + limit * (reads + 1)) * (parser.grammar.nonTerminals.length + 1) + 1

/-- The rank of the top is at most the number of non-terminals. -/
theorem topRank_le (parser : Parser) (stack : List Element) :
    parser.topRank stack ≤ parser.grammar.nonTerminals.length := by
  cases stack with
  | nil => exact Nat.zero_le _
  | cons top _ => exact parser.grammar.unitRank_le top.kind

/-- The weight falls when a push is used up for an element of the stack. -/
theorem weight_push {pushes pushesAfter height rank rankAfter : Nat}
    (fewer : pushesAfter + 1 ≤ pushes)
    (bounded : rankAfter ≤ parser.grammar.nonTerminals.length) :
    parser.weight pushesAfter (height + 1) rankAfter < parser.weight pushes height rank := by
  have paid := Nat.mul_le_mul_left (2 * (parser.grammar.nonTerminals.length + 1)) fewer
  rw [Nat.mul_succ] at paid
  rw [weight, weight, Nat.mul_succ (parser.grammar.nonTerminals.length + 1) height]
  omega

/-- The weight falls when the stack loses an element. -/
theorem weight_lower {pushes height heightAfter rank rankAfter : Nat}
    (lower : heightAfter + 1 ≤ height)
    (bounded : rankAfter ≤ parser.grammar.nonTerminals.length) :
    parser.weight pushes heightAfter rankAfter < parser.weight pushes height rank := by
  have paid := Nat.mul_le_mul_left (parser.grammar.nonTerminals.length + 1) lower
  rw [Nat.mul_succ] at paid
  rw [weight, weight]
  omega

/-- The bound is more than the weight of an empty stack before anything is pushed. -/
theorem weight_lt_runBound (parser : Parser) (limit reads : Nat) :
    parser.weight (pushesLeft limit reads 0) 0 0 < parser.runBound limit reads := by
  have pushes : pushesLeft limit reads 0 = reads + limit * (reads + 1) := by
    rw [pushesLeft, Nat.sub_zero, Nat.mul_succ, Nat.add_assoc]
  have commuted := Nat.mul_right_comm 2 (parser.grammar.nonTerminals.length + 1)
    (reads + limit * (reads + 1))
  rw [weight, runBound, pushes, commuted]
  omega

/-- What a transition uses up: a push that was left, an element of the stack, or a unit step on top
of it. -/
inductive Spends (parser : Parser) (limit reads readsAfter : Nat)
    (configuration next : Configuration σ) : Prop
  /-- An element is put on the stack, and fewer pushes are left. -/
  | push {element : Element} (isStack : next.stack = element :: configuration.stack)
      (fewer : pushesLeft limit readsAfter next.insertions + 1 ≤
        pushesLeft limit reads configuration.insertions) :
      Spends parser limit reads readsAfter configuration next
  /-- The stack loses an element at least. -/
  | lower (sameReads : readsAfter = reads)
      (isInsertions : next.insertions = configuration.insertions)
      (lower : next.stack.length + 1 ≤ configuration.stack.length) :
      Spends parser limit reads readsAfter configuration next
  /-- The top is replaced by a symbol that it is a body of. -/
  | unit {head : String} {top : Element} {beneath : List Element} {derivation : Derivation}
      (sameReads : readsAfter = reads) (stepped : parser.grammar.UnitStep head top.kind)
      (isStack : configuration.stack = top :: beneath)
      (isNext : next = { configuration with stack := .symbol head :: beneath, derivation }) :
      Spends parser limit reads readsAfter configuration next

/-- The potential falls when something is used up and unit steps have no cycle. -/
theorem Spends.potential_lt (accepted : parser.Accepted) (acyclic : parser.grammar.UnitAcyclic)
    {limit reads readsAfter : Nat} {configuration next : Configuration σ}
    (spends : parser.Spends limit reads readsAfter configuration next) :
    parser.potential limit readsAfter next < parser.potential limit reads configuration := by
  rw [potential, potential]
  cases spends with
  | push isStack fewer =>
    have height : next.stack.length = configuration.stack.length + 1 := by
      rw [isStack, List.length_cons]
    rw [height]
    exact weight_push fewer (parser.topRank_le next.stack)
  | lower sameReads isInsertions lower =>
    rw [sameReads, isInsertions]
    exact weight_lower lower (parser.topRank_le next.stack)
  | @unit head top beneath _ sameReads stepped isStack isNext =>
    -- The stack keeps its height, and the head has a lower rank than the symbol it replaces.
    have listed := accepted.mem_nonTerminals_iff.mpr (accepted.isNonTerminal_head stepped)
    have lower : parser.grammar.unitRank head < parser.grammar.unitRank top.kind :=
      Grammar.unitRank_lt acyclic listed stepped
    subst isNext
    rw [sameReads, isStack]
    exact Nat.add_lt_add_left lower _

/-- Replacing a body on top of the stack by its head lowers the stack or is a unit step. -/
theorem spends_of_reduce (accepted : parser.Accepted) {limit reads : Nat}
    {configuration : Configuration σ} {production : Production} {derivation : Derivation}
    (declared : production ∈ parser.grammar.productions)
    (isForm : form configuration.stack =
      form (configuration.stack.drop production.body.length) ++ production.body) :
    parser.Spends limit reads reads configuration
      { configuration with
        stack := .symbol production.head :: configuration.stack.drop production.body.length
        derivation } := by
  obtain ⟨_, short⟩ := take_eq_of_form_eq isForm
  have positive := List.length_pos_of_ne_nil (accepted.body_ne_nil production declared)
  by_cases unit : production.body.length = 1
  · obtain ⟨symbol, isBody⟩ := List.length_eq_one_iff.mp unit
    obtain ⟨top, beneath, isTop⟩ :=
      List.exists_cons_of_length_pos (Nat.lt_of_lt_of_le positive short)
    have isSymbol : symbol = top.kind := by
      rw [isTop, isBody, List.length_singleton, List.drop_succ_cons, List.drop_zero, form_cons,
        List.append_cancel_left_eq] at isForm
      exact (List.cons.inj isForm).1.symm
    have stepped : parser.grammar.UnitStep production.head top.kind := by
      rw [Grammar.UnitStep, ← isSymbol, ← isBody]
      exact declared
    have isDropped : configuration.stack.drop production.body.length = beneath := by
      rw [unit, isTop, List.drop_succ_cons, List.drop_zero]
    exact .unit rfl stepped isTop (by rw [isDropped])
  · refine .lower rfl rfl ?_
    show (configuration.stack.drop production.body.length).length + 1 + 1 ≤ _
    rw [List.length_drop]
    omega

variable [Supply σ]

/-- Every transition uses something up, and so many elements can be read as before or one fewer. -/
theorem Transition.spends (accepted : parser.Accepted) {limit reads : Nat}
    (limited : parser.insertionLimit = some limit) {configuration next : Configuration σ}
    (stacked : parser.Stacked configuration.stack)
    (ends : Supply.EndsWithin parser.endMarker reads configuration.lookahead configuration.input)
    (transition : parser.Transition configuration next) :
    ∃ readsAfter,
      Supply.EndsWithin parser.endMarker readsAfter next.lookahead next.input ∧
      parser.Spends limit reads readsAfter configuration next := by
  cases transition with
  | read isMove pulled =>
    cases ends with
    | marker isEnd => exact absurd isEnd (ne_endMarker_of_read accepted isMove)
    | error failed => simp [failed] at pulled
    | @more readsAfter _ _ _ _ nextPulled later =>
      rw [nextPulled, Prod.mk.injEq, Except.ok.injEq] at pulled
      obtain ⟨rfl, rfl⟩ := pulled
      refine ⟨readsAfter, later, .push rfl ?_⟩
      rw [pushesLeft, pushesLeft, Nat.mul_succ]
      omega
  | insert _ allowed =>
    have room := allowed limit limited
    refine ⟨reads, ends, .push rfl ?_⟩
    show reads + limit * reads + (limit - (configuration.insertions + 1)) + 1 ≤ _
    rw [pushesLeft]
    omega
  | reduce isMove found =>
    have goesOn : parser.nextMove configuration ≠ .reject := by simp [isMove]
    obtain ⟨declared, isBeneath, isForm, _⟩ :=
      findHandle_sound accepted (stacked.occurs accepted goesOn) found
    subst isBeneath
    exact ⟨reads, ends, spends_of_reduce accepted declared isForm⟩

/-- A run ends within more steps than its potential. -/
theorem run_of_potential_lt (accepted : parser.Accepted) (acyclic : parser.grammar.UnitAcyclic)
    {limit : Nat} (limited : parser.insertionLimit = some limit) {steps reads : Nat}
    {configuration : Configuration σ} (stacked : parser.Stacked configuration.stack)
    (ends : Supply.EndsWithin parser.endMarker reads configuration.lookahead configuration.input)
    (enough : parser.potential limit reads configuration < steps) :
    ∃ outcome, parser.run steps (parser.settle configuration) = some outcome := by
  induction steps generalizing reads configuration with
  | zero => exact absurd enough (Nat.not_lt_zero _)
  | succ steps ih =>
    cases isAccepted : parser.accepts configuration.stack configuration.lookahead with
    | true =>
      rw [settle_of_accepts isAccepted]
      exact ⟨_, rfl⟩
    | false =>
      rw [settle_of_not_accepts isAccepted, run]
      rcases parser.step_cases configuration with ⟨next, transition⟩ | ⟨error, final, failed⟩
      · obtain ⟨readsAfter, endsAfter, spends⟩ :=
          transition.spends accepted limited stacked ends
        have lower := spends.potential_lt accepted acyclic
        rw [transition.step_eq]
        exact ih (stacked.transition accepted transition) endsAfter
          (Nat.lt_of_lt_of_le lower (Nat.le_of_lt_succ enough))
      · rw [failed]
        exact ⟨(.error error, final), by cases steps <;> rfl⟩

/-- A run on an input from which so many elements can be read ends within the bound, when unit steps
have no cycle and the number of empty symbols between two elements is limited. -/
theorem run_ends (accepted : parser.Accepted) (acyclic : parser.grammar.UnitAcyclic)
    {limit : Nat} (limited : parser.insertionLimit = some limit) {reads : Nat} {input rest : σ}
    {lookahead : Element} (pulled : Supply.next input = (.ok lookahead, rest))
    (ends : Supply.EndsWithin parser.endMarker reads lookahead rest) :
    ∃ outcome, parser.run (parser.runBound limit reads) (parser.initial input) =
      some outcome := by
  rw [initial_eq pulled]
  exact run_of_potential_lt accepted acyclic limited (stacked_nil parser) ends
    (weight_lt_runBound parser limit reads)

/-! ## Parsing within the bound -/

/-- A run that has ended stays ended. -/
theorem run_mono {steps : Nat} {progress : Progress σ}
    {outcome : Except ParseError Derivation × σ}
    (ended : parser.run steps progress = some outcome) (more : Nat) :
    parser.run (steps + more) progress = some outcome := by
  induction steps generalizing progress with
  | zero =>
    cases progress with
    | finished => cases more <;> exact ended
    | running => cases ended
  | succ steps ih =>
    rw [Nat.add_right_comm]
    cases progress with
    | finished => exact ended
    | running => exact ih ended

/-- Whenever a run ends, it ends in the same way. -/
theorem run_unique {steps others : Nat} {progress : Progress σ}
    {outcome other : Except ParseError Derivation × σ}
    (ended : parser.run steps progress = some outcome)
    (otherEnded : parser.run others progress = some other) : outcome = other := by
  have first := run_mono ended others
  have second := run_mono otherEnded steps
  rw [Nat.add_comm, second] at first
  exact Option.some.inj first.symm

omit [Supply σ] in
/-- The bound is within the steps of a parse that allows for as many elements. -/
theorem runBound_le_stepBound (parser : Parser) {reads size : Nat} (fits : reads ≤ size) :
    parser.runBound parser.grammar.productions.length reads ≤ parser.stepBound size := by
  have wider : reads ≤ (size + 1) *
      (parser.grammar.productions.length + parser.grammar.nonTerminals.length + 1) := by
    rw [Nat.mul_succ]
    omega
  have pushes := Nat.add_le_add wider
    (Nat.mul_le_mul_left parser.grammar.productions.length (Nat.succ_le_succ wider))
  exact Nat.succ_le_succ (Nat.mul_le_mul_right _ (Nat.mul_le_mul_left 2 pushes))

/-- A parse that allows for as many elements gives the outcome of a run that ends within the
bound. -/
theorem parse_eq_of_bounded {reads size : Nat} {input : σ}
    {outcome : Except ParseError Derivation × σ} (fits : reads ≤ size)
    (bounded : parser.run (parser.runBound parser.grammar.productions.length reads)
      (parser.initial input) = some outcome) :
    parser.parse size input = outcome := by
  obtain ⟨more, isStepBound⟩ := Nat.exists_eq_add_of_le (runBound_le_stepBound parser fits)
  rw [parse, isStepBound, run_mono bounded more, Option.getD_some]

/-- A parse that allows for all elements gives the outcome that some run comes to, when unit steps
have no cycle. -/
theorem parse_eq_of_run (accepted : parser.Accepted) (acyclic : parser.grammar.UnitAcyclic)
    (limited : parser.insertionLimit = some parser.grammar.productions.length)
    {steps reads size : Nat} {input rest : σ} {lookahead : Element}
    {outcome : Except ParseError Derivation × σ}
    (pulled : Supply.next input = (.ok lookahead, rest))
    (ends : Supply.EndsWithin parser.endMarker reads lookahead rest) (fits : reads ≤ size)
    (ended : parser.run steps (parser.initial input) = some outcome) :
    parser.parse size input = outcome := by
  obtain ⟨bounded, boundedEnded⟩ := run_ends accepted acyclic limited pulled ends
  rw [parse_eq_of_bounded fits boundedEnded]
  exact run_unique boundedEnded ended

/-- A parse that allows for all elements gives the derivation of an accepted configuration that
transitions lead to, when unit steps have no cycle. -/
theorem parse_eq_of_leads (accepted : parser.Accepted) (acyclic : parser.grammar.UnitAcyclic)
    (limited : parser.insertionLimit = some parser.grammar.productions.length)
    {size : Nat} {input rest : σ} {lookahead : Element} {elements : List Element}
    {last : Configuration σ} (pulled : Supply.next input = (.ok lookahead, rest))
    (leads : parser.Leads (opening lookahead rest) elements last)
    (isAccepted : parser.accepts last.stack last.lookahead = true)
    (fits : elements.length ≤ size) :
    parser.parse size input = (.ok last.derivation, last.input) := by
  have ends := leads.reads.endsWithin (accepts_iff.mp isAccepted).2
  obtain ⟨count, goesOn⟩ := leads.run_eq
  have ended : parser.run (count + 0) (parser.initial input) =
      some (.ok last.derivation, last.input) := by
    rw [initial_eq pulled, goesOn, settle_of_accepts isAccepted, run]
  exact parse_eq_of_run accepted acyclic limited pulled ends fits ended

/-- A run on an input that ends by some size ends within so many steps, with a derivation or with an
error, when unit steps have no cycle. A parse of the input gives what the run ends with. -/
theorem run_ends_within {ruleset : Ruleset} (made : ofRuleset ruleset = .ok parser)
    (acyclic : parser.grammar.UnitAcyclic) {input : σ} {size : Nat}
    (ends : Supply.EndsBy ruleset.endMarker size input) :
    ∃ outcome,
      parser.run
          (2 * (size + parser.grammar.productions.length * (size + 1)) *
            (parser.grammar.nonTerminals.length + 1) + 1)
          (parser.initial input) = some outcome ∧
        parser.parse size input = outcome := by
  obtain ⟨accepted, _, _, _, isEnd, limited⟩ := accepted_of_ruleset made
  rw [← isEnd] at ends
  have bounded : ∃ outcome, parser.run
      (parser.runBound parser.grammar.productions.length size) (parser.initial input) =
        some outcome := by
    cases pulled : Supply.next input with
    | mk first rest =>
      cases first with
      | error error =>
        rw [initial_error pulled, runBound, run]
        exact ⟨_, rfl⟩
      | ok lookahead => exact run_ends accepted acyclic limited pulled (ends.endsWithin pulled)
  obtain ⟨outcome, ended⟩ := bounded
  exact ⟨outcome, ended, parse_eq_of_bounded (Nat.le_refl size) ended⟩

/-- A run on symbols that have an empty symbol, an end marker and an unknown symbol among them ends
within its bound. -/
theorem run_ends_within_arithmetic :
    let input := SymbolSupply.mk ["(", "v", "ε", "?", "$", "v"] "$"
    ofRuleset .arithmetic = .ok arithmetic ∧ arithmetic.grammar.UnitAcyclic ∧
      Supply.EndsBy "$" 6 input ∧
      ∃ outcome, arithmetic.run (2 * (6 + 8 * 7) * 6 + 1) (arithmetic.initial input) =
          some outcome ∧ arithmetic.parse 6 input = outcome := by
  intro input
  have ends : Supply.EndsBy "$" 6 input :=
    Supply.endsBy_symbols ["(", "v", "ε", "?", "$", "v"] "$"
  exact ⟨ofRuleset_arithmetic, unitAcyclic_arithmetic, ends,
    run_ends_within ofRuleset_arithmetic unitAcyclic_arithmetic ends⟩

end Precedence.Parser
