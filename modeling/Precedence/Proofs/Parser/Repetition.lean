import Mathlib.Data.List.Perm.Subperm
import Precedence.Proofs.Parser.Termination

/-!
# Runs that end at all

What a run does next depends on its stack, on the element that comes next and on the input left,
not on what it has derived. So a run that comes back to a stack, with nothing read or inserted in
between, repeats for ever. A run that ends therefore replaces the top of a stack by each
non-terminal once at most, and ends within the bound whether or not unit steps have a cycle. A
parse that allows for all elements gives the outcome of every run that ends.
-/

namespace Precedence.Parser

variable {parser : Parser} {σ : Type} [Supply σ]

/-! ## Coming back to a configuration -/

/-- The same transition can be made with another derivation. -/
theorem Transition.with_derivation {configuration next : Configuration σ}
    (transition : parser.Transition configuration next) (derivation : Derivation) :
    ∃ later, parser.Transition { configuration with derivation }
      { next with derivation := later } := by
  cases transition with
  | read isMove pulled => exact ⟨derivation, .read isMove pulled⟩
  | @reduce production _ isMove found => exact ⟨production :: derivation, .reduce isMove found⟩
  | insert isMove allowed => exact ⟨derivation, .insert isMove allowed⟩

/-- A configuration is not accepted if the run from it does not end within some steps. -/
theorem unaccepted_of_run_eq_none {steps : Nat} {configuration : Configuration σ}
    (endless : parser.run steps (parser.settle configuration) = none) :
    parser.accepts configuration.stack configuration.lookahead = false := by
  cases isAccepted : parser.accepts configuration.stack configuration.lookahead with
  | false => rfl
  | true =>
    rw [settle_of_accepts isAccepted] at endless
    cases steps <;> cases endless

/-- A run that does not end within some steps does not with another derivation either. -/
theorem run_eq_none_with_derivation {steps : Nat} {configuration : Configuration σ}
    (derivation : Derivation) (endless : parser.run steps (parser.settle configuration) = none) :
    parser.run steps (parser.settle { configuration with derivation }) = none := by
  induction steps generalizing configuration derivation with
  | zero =>
    have unaccepted := unaccepted_of_run_eq_none endless
    have isRunning : parser.settle { configuration with derivation } =
        .running { configuration with derivation } := settle_of_not_accepts unaccepted
    rw [isRunning]
    rfl
  | succ steps ih =>
    have unaccepted := unaccepted_of_run_eq_none endless
    have isRunning : parser.settle { configuration with derivation } =
        .running { configuration with derivation } := settle_of_not_accepts unaccepted
    rw [settle_of_not_accepts unaccepted, run] at endless
    rw [isRunning, run]
    rcases parser.step_cases configuration with ⟨next, transition⟩ | ⟨error, rest, failed⟩
    · obtain ⟨later, same⟩ := transition.with_derivation derivation
      rw [transition.step_eq] at endless
      rw [same.step_eq]
      exact ih later endless
    · rw [failed] at endless
      cases steps <;> cases endless

/-- A run that comes back to a configuration, but for the derivation, never ends. -/
theorem run_eq_none_of_repeats {configuration : Configuration σ} {derivation : Derivation}
    {count : Nat} (positive : 0 < count)
    (unaccepted : parser.accepts configuration.stack configuration.lookahead = false)
    (repeats : ∀ steps, parser.run (count + steps) (parser.settle configuration) =
      parser.run steps (parser.settle { configuration with derivation })) (steps : Nat) :
    parser.run steps (parser.settle configuration) = none := by
  induction steps using Nat.strongRecOn with
  | ind steps ih =>
    by_cases short : steps < count
    · -- The run has not come back yet.
      have goesOn : parser.run count (parser.settle configuration) = none := by
        have again : parser.settle { configuration with derivation } =
            .running { configuration with derivation } := settle_of_not_accepts unaccepted
        have atReturn := repeats 0
        rw [again] at atReturn
        exact atReturn
      cases ended : parser.run steps (parser.settle configuration) with
      | none => rfl
      | some outcome =>
        have later := run_mono ended (count - steps)
        rw [Nat.add_sub_cancel' (Nat.le_of_lt short), goesOn] at later
        cases later
    · obtain ⟨rest, rfl⟩ := Nat.exists_eq_add_of_le (Nat.le_of_not_lt short)
      rw [repeats]
      exact run_eq_none_with_derivation derivation (ih rest (by omega))

/-! ## Heads on top of a stack -/

/-- Heads that a run has put on top of the same stack, one in place of the other, since it last did
anything else. From each of them it has come to the configuration. -/
structure Visited (parser : Parser) (configuration : Configuration σ) (heads : List String) :
    Prop where
  /-- No head has been put on the stack twice. -/
  nodup : heads.Nodup
  /-- The heads are non-terminals. -/
  listed : heads ⊆ parser.grammar.nonTerminals
  /-- The run goes on from each head as it does from the configuration. -/
  leads : ∀ head ∈ heads, ∃ derivation count, ∀ steps,
    parser.run (count + steps)
        (parser.settle { configuration with
          stack := .symbol head :: configuration.stack.tail, derivation }) =
      parser.run steps (parser.settle configuration)

/-- At first no head has been put on the stack. -/
theorem visited_nil (parser : Parser) (configuration : Configuration σ) :
    parser.Visited configuration [] where
  nodup := .nil
  listed := List.nil_subset _
  leads := List.forall_mem_nil _

/-- There are no more heads than non-terminals. -/
theorem Visited.length_le {configuration : Configuration σ} {heads : List String}
    (visited : parser.Visited configuration heads) :
    heads.length ≤ parser.grammar.nonTerminals.length :=
  (visited.nodup.subperm visited.listed).length_le

/-- The next head is a new one if the run ends. -/
theorem Visited.unit {configuration : Configuration σ} {heads : List String}
    (visited : parser.Visited configuration heads) {head : String} {derivation : Derivation}
    (listed : head ∈ parser.grammar.nonTerminals)
    (unaccepted : parser.accepts configuration.stack configuration.lookahead = false)
    (stepped : parser.step configuration = parser.settle { configuration with
      stack := .symbol head :: configuration.stack.tail, derivation })
    {ending : Nat} {outcome : Except ParseError Derivation × σ}
    (ended : parser.run ending (parser.settle configuration) = some outcome) :
    parser.Visited { configuration with
      stack := .symbol head :: configuration.stack.tail, derivation } (head :: heads) := by
  have onward : ∀ steps, parser.run (1 + steps) (parser.settle configuration) =
      parser.run steps (parser.settle { configuration with
        stack := .symbol head :: configuration.stack.tail, derivation }) := by
    intro steps
    rw [settle_of_not_accepts unaccepted, Nat.add_comm, run, stepped]
  have fresh : head ∉ heads := by
    intro held
    obtain ⟨before, count, leads⟩ := visited.leads head held
    -- The run has come from this head to the configuration, and now comes back to it.
    have goesOn : parser.accepts (.symbol head :: configuration.stack.tail)
        configuration.lookahead = false := by
      cases isAccepted : parser.accepts (.symbol head :: configuration.stack.tail)
          configuration.lookahead with
      | false => rfl
      | true =>
        have atOnce := leads 0
        rw [settle_of_accepts isAccepted, settle_of_not_accepts unaccepted] at atOnce
        cases count <;> cases atOnce
    have repeats : ∀ steps, parser.run (count + 1 + steps)
          (parser.settle { configuration with
            stack := .symbol head :: configuration.stack.tail, derivation := before }) =
        parser.run steps (parser.settle { configuration with
          stack := .symbol head :: configuration.stack.tail, derivation }) := by
      intro steps
      rw [Nat.add_assoc, leads, onward]
    have endless := run_eq_none_of_repeats (Nat.succ_pos count) goesOn repeats (count + ending)
    rw [leads, ended] at endless
    cases endless
  refine ⟨List.nodup_cons.mpr ⟨fresh, visited.nodup⟩,
    List.cons_subset.mpr ⟨listed, visited.listed⟩, ?_⟩
  intro other held
  rcases List.mem_cons.mp held with rfl | earlier
  · exact ⟨derivation, 0, fun steps => by rw [Nat.zero_add]; rfl⟩
  · obtain ⟨before, count, leads⟩ := visited.leads other earlier
    refine ⟨before, count + 1, fun steps => ?_⟩
    rw [Nat.add_assoc]
    exact (leads (1 + steps)).trans (onward steps)

/-! ## The bound of a run that ends -/

/-- A run that ends does so within more steps than its weight, if the rank counts the non-terminals
that are not yet among its heads. -/
theorem run_of_weight_lt (accepted : parser.Accepted) {limit : Nat}
    (limited : parser.insertionLimit = some limit) {steps reads rank : Nat} {heads : List String}
    {configuration : Configuration σ} (stacked : parser.Stacked configuration.stack)
    (ends : Supply.EndsWithin parser.endMarker reads configuration.lookahead configuration.input)
    (visited : parser.Visited configuration heads)
    (ranked : configuration.stack ≠ [] →
      parser.grammar.nonTerminals.length ≤ rank + heads.length)
    {ending : Nat} {outcome : Except ParseError Derivation × σ}
    (ended : parser.run ending (parser.settle configuration) = some outcome)
    (enough : parser.weight (pushesLeft limit reads configuration.insertions)
      configuration.stack.length rank < steps) :
    parser.run steps (parser.settle configuration) = some outcome := by
  induction steps generalizing reads rank heads configuration ending with
  | zero => exact absurd enough (Nat.not_lt_zero _)
  | succ steps ih =>
    cases isAccepted : parser.accepts configuration.stack configuration.lookahead with
    | true =>
      rw [settle_of_accepts isAccepted] at ended ⊢
      cases ending <;> exact ended
    | false =>
      rw [settle_of_not_accepts isAccepted, run]
      -- The run ends one step sooner from where the step leads.
      obtain ⟨later, endedLater⟩ :
          ∃ later, parser.run later (parser.step configuration) = some outcome := by
        rw [settle_of_not_accepts isAccepted] at ended
        cases ending with
        | zero => cases ended
        | succ later => exact ⟨later, ended⟩
      rcases parser.step_cases configuration with ⟨next, transition⟩ | ⟨error, final, failed⟩
      · obtain ⟨readsAfter, endsAfter, spends⟩ :=
          transition.spends accepted limited stacked ends
        have stackedAfter := stacked.transition accepted transition
        have stepped := transition.step_eq
        rw [stepped] at endedLater ⊢
        have within := Nat.le_of_lt_succ enough
        have allRanked : next.stack ≠ [] → parser.grammar.nonTerminals.length ≤
            parser.grammar.nonTerminals.length + ([] : List String).length :=
          fun _ => Nat.le_refl _
        cases spends with
        | push isStack fewer =>
          have lighter : parser.weight (pushesLeft limit readsAfter next.insertions)
              next.stack.length parser.grammar.nonTerminals.length < steps := by
            refine Nat.lt_of_lt_of_le ?_ within
            rw [isStack, List.length_cons]
            exact weight_push fewer (Nat.le_refl _)
          exact ih stackedAfter endsAfter (visited_nil parser next) allRanked endedLater lighter
        | lower sameReads isInsertions lower =>
          have lighter : parser.weight (pushesLeft limit readsAfter next.insertions)
              next.stack.length parser.grammar.nonTerminals.length < steps := by
            refine Nat.lt_of_lt_of_le ?_ within
            rw [sameReads, isInsertions]
            exact weight_lower lower (Nat.le_refl _)
          exact ih stackedAfter endsAfter (visited_nil parser next) allRanked endedLater lighter
        | @unit head top beneath derivation sameReads unitStep isStack isNext =>
          have listed := accepted.mem_nonTerminals_iff.mpr (accepted.isNonTerminal_head unitStep)
          have isTail : configuration.stack.tail = beneath := by rw [isStack, List.tail_cons]
          rw [← isTail] at isNext
          subst isNext
          have visitedAfter := visited.unit listed isAccepted stepped ended
          have room := visitedAfter.length_le
          have full := ranked (by rw [isStack]; exact List.cons_ne_nil _ _)
          rw [List.length_cons] at room
          have height : configuration.stack.tail.length + 1 = configuration.stack.length := by
            rw [isStack, List.tail_cons, List.length_cons]
          have rankedAfter : parser.grammar.nonTerminals.length ≤
              (rank - 1) + (head :: heads).length := by
            rw [List.length_cons]
            omega
          have lighter : parser.weight (pushesLeft limit readsAfter configuration.insertions)
              (configuration.stack.tail.length + 1) (rank - 1) < steps := by
            refine Nat.lt_of_lt_of_le ?_ within
            rw [sameReads, height, weight, weight]
            omega
          exact ih stackedAfter endsAfter visitedAfter (fun _ => rankedAfter) endedLater lighter
      · rw [failed] at endedLater ⊢
        cases later <;> cases steps <;> exact endedLater

/-- A parse that allows for all elements gives the outcome that some run comes to. -/
theorem parse_eq_of_ended (accepted : parser.Accepted)
    (limited : parser.insertionLimit = some parser.grammar.productions.length) {input : σ}
    {size : Nat} (ends : Supply.EndsBy parser.endMarker size input) {steps : Nat}
    {outcome : Except ParseError Derivation × σ}
    (ended : parser.run steps (parser.initial input) = some outcome) :
    parser.parse size input = outcome := by
  refine parse_eq_of_bounded (Nat.le_refl size) ?_
  cases pulled : Supply.next input with
  | mk first rest =>
    cases first with
    | error error =>
      rw [initial_error pulled] at ended ⊢
      cases steps <;> exact ended
    | ok lookahead =>
      rw [initial_eq pulled] at ended ⊢
      exact run_of_weight_lt accepted limited (stacked_nil parser) (ends.endsWithin pulled)
        (visited_nil parser _) (fun filled => absurd rfl filled) ended
        (weight_lt_runBound parser _ size)

/-- Whether the run on an input never ends. -/
def RunsForever (parser : Parser) (input : σ) : Prop :=
  ∀ steps, parser.run steps (parser.initial input) = none

/-- A parse that allows for all elements does not finish when the run on its input never ends, and
has the outcome of the run otherwise. -/
theorem parse_cases (accepted : parser.Accepted)
    (limited : parser.insertionLimit = some parser.grammar.productions.length) {input : σ}
    {size : Nat} (ends : Supply.EndsBy parser.endMarker size input) :
    parser.RunsForever input ∧ parser.parse size input = (.error .unfinished, input) ∨
      ∃ steps, parser.run steps (parser.initial input) = some (parser.parse size input) := by
  by_cases forever : parser.RunsForever input
  · left
    refine ⟨forever, ?_⟩
    rw [parse, forever]
    rfl
  · right
    obtain ⟨steps, isSome⟩ := not_forall.mp forever
    obtain ⟨outcome, ended⟩ := Option.ne_none_iff_exists'.mp isSome
    refine ⟨steps, ?_⟩
    rw [parse_eq_of_ended accepted limited ends ended]
    exact ended

end Precedence.Parser
