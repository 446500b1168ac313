import Precedence.Proofs.Parser.Transition

/-!
# Runs on inputs of the same kinds

A parser looks at elements by their kinds alone. So runs on two inputs that give elements of the
same kinds stay in step: after as many steps both are under way with stacks of the same kinds and
the same productions reduced, or both have ended in the same way, having read as many elements. They
part only when the first input fails, and the run on it then ends with the lexical error.

How a run ends is told by what it pulled last: the end marker before which its configuration is
accepted, the element refused or the lexical error. What it read is what it pulled before.
-/

namespace Precedence

namespace Supply

/-! ## Inputs of the same kinds -/

/-- Whether what is pulled from two inputs has the same kinds, up to an error of the first. -/
inductive SameKinds :
    List (Except LexicalError Element) → List (Except LexicalError Element) → Prop
  /-- Nothing has been pulled. -/
  | nil : SameKinds [] []
  /-- An error comes first, and what is pulled after it makes no difference. -/
  | error {error : LexicalError} {later others : List (Except LexicalError Element)} :
      SameKinds (.error error :: later) others
  /-- Elements of the same kind come first. -/
  | cons {element other : Element} {later others : List (Except LexicalError Element)}
      (sameKind : element.kind = other.kind) (rest : SameKinds later others) :
      SameKinds (.ok element :: later) (.ok other :: others)

/-- Elements of the same kinds may be pulled first. -/
theorem SameKinds.append {elements others : List Element}
    (kinds : elements.map Element.kind = others.map Element.kind)
    {later rest : List (Except LexicalError Element)} (same : SameKinds later rest) :
    SameKinds (elements.map .ok ++ later) (others.map .ok ++ rest) := by
  induction elements generalizing others with
  | nil =>
    have none : others = [] := List.map_eq_nil_iff.mp kinds.symm
    subst none
    exact same
  | cons element elements ih =>
    cases others with
    | nil => cases kinds
    | cons other others =>
      rw [List.map_cons, List.map_cons, List.cons.injEq] at kinds
      exact .cons kinds.1 (ih kinds.2)

/-- What is pulled first has the same kinds too. -/
theorem SameKinds.take {outcomes others : List (Except LexicalError Element)}
    (same : SameKinds outcomes others) (count : Nat) :
    SameKinds (outcomes.take count) (others.take count) := by
  induction same generalizing count with
  | nil =>
    rw [List.take_nil]
    exact .nil
  | error =>
    cases count with
    | zero => exact .nil
    | succ count => exact .error
  | cons sameKind _ ih =>
    cases count with
    | zero => exact .nil
    | succ count => exact .cons sameKind (ih count)

variable {σ τ : Type} [Supply σ] [Supply τ] {input : σ} {other : τ}

/-- Whether two inputs give elements of the same kinds, up to the first error of the first. -/
def Alike (input : σ) (other : τ) : Prop :=
  ∀ count, SameKinds (pulls count input).1 (pulls count other).1

/-- The first of two inputs of the same kinds fails, or both give an element of the same kind and
are then still of the same kinds. -/
theorem Alike.next (alike : Alike input other) :
    (∃ error rest, Supply.next input = (.error error, rest)) ∨
      ∃ element rest second remaining, Supply.next input = (.ok element, rest) ∧
        Supply.next other = (.ok second, remaining) ∧ element.kind = second.kind ∧
        Alike rest remaining := by
  cases pulled : Supply.next input with
  | mk outcome rest =>
    cases outcome with
    | error error => exact Or.inl ⟨error, rest, rfl⟩
    | ok element =>
      right
      cases otherPulled : Supply.next other with
      | mk outcome remaining =>
        have together : ∀ count, SameKinds (.ok element :: (pulls count rest).1)
            (outcome :: (pulls count remaining).1) := by
          intro count
          have same := alike (count + 1)
          rwa [pulls, pulls, pulled, otherPulled] at same
        cases outcome with
        | error error => cases together 0
        | ok second =>
          have sameKind : element.kind = second.kind := by
            cases together 0 with
            | cons sameKind => exact sameKind
          refine ⟨element, rest, second, remaining, rfl, rfl, sameKind, fun count => ?_⟩
          cases together count with
          | cons _ later => exact later

/-- Inputs that give elements of the same kinds and then one end marker are of the same kinds. -/
theorem alike_of_gives {elements others : List Element} {endMarker : String}
    (gives : Gives input elements endMarker) (otherGives : Gives other others endMarker)
    (kinds : elements.map Element.kind = others.map Element.kind) : Alike input other := by
  intro count
  rw [gives count, otherGives count]
  have taken : ((elements ++ List.replicate count (Element.symbol endMarker)).take count).map
        Element.kind =
      ((others ++ List.replicate count (Element.symbol endMarker)).take count).map
        Element.kind := by
    rw [List.map_take, List.map_take, List.map_append, List.map_append, kinds]
  have same := SameKinds.append taken .nil
  rwa [List.append_nil, List.append_nil] at same

end Supply

namespace Parser

/-! ## Decisions look at kinds -/

variable {parser : Parser} {stack other : List Element}

/-- The height of a stack is told by its kinds. -/
theorem length_eq_of_kinds (kinds : stack.map Element.kind = other.map Element.kind) :
    stack.length = other.length := by
  have lengths := congrArg List.length kinds
  rwa [List.length_map, List.length_map] at lengths

/-- The kind on top of a stack is told by its kinds. -/
theorem topKind_eq_of_kinds (kinds : stack.map Element.kind = other.map Element.kind) :
    parser.topKind stack = parser.topKind other := by
  cases stack with
  | nil =>
    have none : other = [] := List.map_eq_nil_iff.mp kinds.symm
    rw [none]
  | cons top beneath =>
    cases other with
    | nil => cases kinds
    | cons second others =>
      rw [List.map_cons, List.map_cons, List.cons.injEq] at kinds
      exact kinds.1

/-- The key of what is on top of a stack is told by its kinds. -/
theorem topKey_eq_of_kinds (kinds : stack.map Element.kind = other.map Element.kind)
    (length : Nat) : topKey stack length = topKey other length := by
  rw [topKey, topKey, List.map_reverse, List.map_reverse, List.map_take, List.map_take, kinds]

/-- Whether a parser accepts is told by kinds. -/
theorem accepts_eq_of_kinds (kinds : stack.map Element.kind = other.map Element.kind)
    {lookahead second : Element} (sameKind : lookahead.kind = second.kind) :
    parser.accepts stack lookahead = parser.accepts other second := by
  have sameLength : stack.length = other.length := length_eq_of_kinds kinds
  match stack, other with
  | [], [] => rfl
  | [element], [only] =>
    have same : element.kind = only.kind := (List.cons.inj kinds).1
    rw [accepts, accepts, same, sameKind]
  | _ :: _ :: _, _ :: _ :: _ => rfl
  | [], _ :: _ => cases sameLength
  | _ :: _, [] => cases sameLength
  | [_], _ :: _ :: _ => cases sameLength
  | _ :: _ :: _, [_] => cases sameLength

/-- The handles on top of stacks of the same kinds are reduced by the same production, and what is
beneath them has the same kinds. -/
theorem findHandle_of_kinds (parser : Parser)
    (kinds : stack.map Element.kind = other.map Element.kind) (length : Nat) :
    (parser.findHandle stack length = none ∧ parser.findHandle other length = none) ∨
      ∃ production beneath below, parser.findHandle stack length = some (production, beneath) ∧
        parser.findHandle other length = some (production, below) ∧
        beneath.map Element.kind = below.map Element.kind := by
  induction length with
  | zero => exact Or.inl ⟨rfl, rfl⟩
  | succ length ih =>
    have beneathKinds : (stack.drop (length + 1)).map Element.kind =
        (other.drop (length + 1)).map Element.kind := by
      rw [List.map_drop, List.map_drop, kinds]
    have sameChoice : parser.select (topKey stack (length + 1))
          (parser.topKind (stack.drop (length + 1))) =
        parser.select (topKey other (length + 1))
          (parser.topKind (other.drop (length + 1))) := by
      rw [topKey_eq_of_kinds kinds, topKind_eq_of_kinds beneathKinds]
    rw [findHandle, findHandle]
    simp only [sameChoice]
    cases parser.select (topKey other (length + 1))
        (parser.topKind (other.drop (length + 1))) with
    | none => exact ih
    | some production => exact Or.inr ⟨production, _, _, rfl, rfl, beneathKinds⟩

/-! ## Steps and runs in step -/

/-- An outcome with the element that is refused, if one is, replaced by its kind. -/
def outcomeKind : Except ParseError Derivation → Except ParseError Derivation
  | .error (.grammatical error) => .error (.grammatical ⟨.symbol error.lookahead.kind⟩)
  | outcome => outcome

variable {σ τ : Type} [Supply σ] [Supply τ]

/-- Configurations of two runs that are in step. -/
structure Alike (configuration : Configuration σ) (second : Configuration τ) : Prop where
  /-- The stacks have the same kinds. -/
  stack : configuration.stack.map Element.kind = second.stack.map Element.kind
  /-- The same productions have been reduced. -/
  derivation : configuration.derivation = second.derivation
  /-- The elements that come next have the same kind. -/
  lookahead : configuration.lookahead.kind = second.lookahead.kind
  /-- As many empty symbols have been inserted. -/
  insertions : configuration.insertions = second.insertions
  /-- The inputs left have the same kinds. -/
  input : Supply.Alike configuration.input second.input

/-- How far two runs have come when they are in step, unless the first has met an error in its
input. -/
inductive InStep : Progress σ → Progress τ → Prop
  /-- Both are under way. -/
  | running {configuration : Configuration σ} {second : Configuration τ}
      (alike : Alike configuration second) : InStep (.running configuration) (.running second)
  /-- Both have ended in the same way. -/
  | finished {outcome ending : Except ParseError Derivation} {rest : σ} {remaining : τ}
      (same : outcomeKind outcome = outcomeKind ending) :
      InStep (.finished outcome rest) (.finished ending remaining)
  /-- The first has ended with a lexical error. -/
  | failed {error : LexicalError} {rest : σ} {progress : Progress τ} :
      InStep (.finished (.error (.lexical error)) rest) progress

/-- Settling keeps runs in step. -/
theorem inStep_settle {configuration : Configuration σ} {second : Configuration τ}
    (alike : Alike configuration second) :
    InStep (parser.settle configuration) (parser.settle second) := by
  have sameAnswer : parser.accepts configuration.stack configuration.lookahead =
      parser.accepts second.stack second.lookahead :=
    accepts_eq_of_kinds alike.stack alike.lookahead
  cases accepted : parser.accepts second.stack second.lookahead with
  | true =>
    rw [settle_of_accepts (sameAnswer.trans accepted), settle_of_accepts accepted,
      alike.derivation]
    exact .finished rfl
  | false =>
    rw [settle_of_not_accepts (sameAnswer.trans accepted), settle_of_not_accepts accepted]
    exact .running alike

/-- Pulling keeps runs in step. -/
theorem inStep_pull {stack other : List Element} {derivation : Derivation} {input : σ}
    {second : τ} (kinds : stack.map Element.kind = other.map Element.kind)
    (alike : Supply.Alike input second) :
    InStep (parser.pull stack derivation input) (parser.pull other derivation second) := by
  rw [pull, pull]
  rcases alike.next with ⟨error, rest, pulled⟩ |
    ⟨element, rest, next, remaining, pulled, otherPulled, sameKind, later⟩
  · rw [pulled]
    exact .failed
  · rw [pulled, otherPulled]
    exact inStep_settle
      { stack := kinds
        derivation := rfl
        lookahead := sameKind
        insertions := rfl
        input := later }

/-- Runs on inputs of the same kinds start in step. -/
theorem inStep_initial {input : σ} {second : τ} (alike : Supply.Alike input second) :
    InStep (parser.initial input) (parser.initial second) :=
  inStep_pull rfl alike

/-- Refusing the elements that come next ends both runs in the same way. -/
theorem inStep_reject {configuration : Configuration σ} {second : Configuration τ}
    (sameKind : configuration.lookahead.kind = second.lookahead.kind) :
    InStep (reject configuration) (reject second) := by
  refine .finished ?_
  rw [outcomeKind, outcomeKind, sameKind]

/-- Configurations in step call for the same move. -/
theorem Alike.nextMove_eq {configuration : Configuration σ} {second : Configuration τ}
    (alike : Alike configuration second) :
    parser.nextMove configuration = parser.nextMove second := by
  rw [nextMove, nextMove, topKind_eq_of_kinds alike.stack, alike.lookahead]

/-- A step keeps runs in step. -/
theorem inStep_step {configuration : Configuration σ} {second : Configuration τ}
    (alike : Alike configuration second) :
    InStep (parser.step configuration) (parser.step second) := by
  rw [step, step, alike.nextMove_eq]
  cases parser.nextMove second with
  | read =>
    have kinds : (configuration.lookahead :: configuration.stack).map Element.kind =
        (second.lookahead :: second.stack).map Element.kind := by
      rw [List.map_cons, List.map_cons, alike.lookahead, alike.stack]
    rw [alike.derivation]
    exact inStep_pull kinds alike.input
  | reduce =>
    have sameHeight := length_eq_of_kinds alike.stack
    rw [reduce, reduce, sameHeight]
    rcases findHandle_of_kinds parser alike.stack
        (min second.stack.length parser.longestBody) with
      ⟨none, noneToo⟩ | ⟨production, beneath, below, found, foundToo, kinds⟩
    · simp only [none, noneToo]
      exact inStep_reject alike.lookahead
    · simp only [found, foundToo]
      exact inStep_settle
        { stack := by rw [List.map_cons, List.map_cons, kinds]
          derivation := by rw [alike.derivation]
          lookahead := alike.lookahead
          insertions := alike.insertions
          input := alike.input }
  | insert empty =>
    by_cases exceeded : ∃ limit ∈ parser.insertionLimit, limit < second.insertions + 1
    · simp only [insertEmpty, alike.insertions, if_pos exceeded]
      exact inStep_reject alike.lookahead
    · simp only [insertEmpty, alike.insertions, if_neg exceeded]
      exact inStep_settle
        { stack := by rw [List.map_cons, List.map_cons, alike.stack]
          derivation := alike.derivation
          lookahead := alike.lookahead
          insertions := rfl
          input := alike.input }
  | reject => exact inStep_reject alike.lookahead

/-- After as many steps, runs in step have ended in the same way or are both under way, and have
read elements of the same kinds, unless the first has met an error in its input. -/
theorem run_of_inStep {progress : Progress σ} {second : Progress τ}
    (inStep : InStep progress second) (steps : Nat) :
    (∃ error rest, parser.run steps progress = some (.error (.lexical error), rest)) ∨
      (parser.run steps progress).map (fun ended => outcomeKind ended.1) =
          (parser.run steps second).map (fun ended => outcomeKind ended.1) ∧
        (parser.elementsRead steps progress).map Element.kind =
          (parser.elementsRead steps second).map Element.kind := by
  induction steps generalizing progress second with
  | zero =>
    cases inStep with
    | running => exact Or.inr ⟨rfl, rfl⟩
    | finished same => exact Or.inr ⟨congrArg some same, rfl⟩
    | failed => exact Or.inl ⟨_, _, rfl⟩
  | succ steps ih =>
    cases inStep with
    | finished same => exact Or.inr ⟨congrArg some same, rfl⟩
    | failed => exact Or.inl ⟨_, _, rfl⟩
    | @running configuration second alike =>
      rw [run, run, elementsRead, elementsRead]
      rcases ih (inStep_step alike) with failed | ⟨sameOutcome, sameKinds⟩
      · exact Or.inl failed
      · refine Or.inr ⟨sameOutcome, ?_⟩
        have sameRead : (parser.readBy configuration).map Element.kind =
            (parser.readBy second).map Element.kind := by
          rw [readBy, readBy, alike.nextMove_eq]
          split
          · exact congrArg ([·]) alike.lookahead
          · rfl
        rw [List.map_append, List.map_append, sameRead, sameKinds]

/-- When the first of two runs in step has ended, but not for an error of its input, the second has
ended in the same way, having read as many elements. -/
theorem run_ends_of_inStep {progress : Progress σ} {second : Progress τ}
    (inStep : InStep progress second) {steps : Nat} {outcome : Except ParseError Derivation}
    {rest : σ} (ended : parser.run steps progress = some (outcome, rest))
    (noError : ∀ error, outcome ≠ .error (.lexical error)) :
    ∃ ending remaining, parser.run steps second = some (ending, remaining) ∧
      outcomeKind outcome = outcomeKind ending ∧
      (parser.elementsRead steps second).length =
        (parser.elementsRead steps progress).length := by
  rcases run_of_inStep inStep steps with ⟨error, final, failed⟩ | ⟨sameOutcome, sameKinds⟩
  · rw [ended] at failed
    cases failed
    exact absurd rfl (noError error)
  · rw [ended, Option.map_some] at sameOutcome
    obtain ⟨⟨ending, remaining⟩, otherEnded, sameEnding⟩ :=
      Option.map_eq_some_iff.mp sameOutcome.symm
    exact ⟨ending, remaining, otherEnded, sameEnding.symm, (length_eq_of_kinds sameKinds).symm⟩

/-! ## What a run has pulled -/

/-- How a run ends, by what it has pulled last. -/
inductive EndsAt : Except LexicalError Element → Except ParseError Derivation → Prop
  /-- The end marker came next and the configuration is accepted. -/
  | derived {element : Element} {derivation : Derivation} :
      EndsAt (.ok element) (.ok derivation)
  /-- The element that came next is refused. -/
  | refused {element : Element} : EndsAt (.ok element) (.error (.grammatical ⟨element⟩))
  /-- The input failed. -/
  | failed {error : LexicalError} : EndsAt (.error error) (.error (.lexical error))

/-- A run that has pulled an element last does not end with a lexical error. -/
theorem EndsAt.ne_lexical {element : Element} {outcome : Except ParseError Derivation}
    (endsAt : EndsAt (.ok element) outcome) :
    ∀ error, outcome ≠ .error (.lexical error) := by
  rintro error rfl
  cases endsAt

/-- Runs that end in the same way, but not for an error of their input, end with the same derivation
or refuse the elements that they have pulled last. -/
theorem EndsAt.same_way {element : Element} {last : Except LexicalError Element}
    {outcome ending : Except ParseError Derivation} (endsAt : EndsAt (.ok element) outcome)
    (endingAt : EndsAt last ending) (same : outcomeKind outcome = outcomeKind ending) :
    (∃ derivation, outcome = .ok derivation ∧ ending = .ok derivation) ∨
      ∃ next, last = .ok next ∧ outcome = .error (.grammatical ⟨element⟩) ∧
        ending = .error (.grammatical ⟨next⟩) := by
  cases endsAt with
  | derived =>
    cases endingAt with
    | derived =>
      cases same
      exact Or.inl ⟨_, rfl, rfl⟩
    | refused => cases same
    | failed => cases same
  | refused =>
    cases endingAt with
    | derived => cases same
    | refused => exact Or.inr ⟨_, rfl, rfl, rfl⟩
    | failed => cases same

/-- What a run has pulled when it ends, from a configuration with an element that comes next: the
elements that it reads, and then the element or the error that it ends at. -/
theorem pulls_of_run_settle {steps : Nat} {configuration : Configuration σ}
    {outcome : Except ParseError Derivation} {rest : σ}
    (ended : parser.run steps (parser.settle configuration) = some (outcome, rest)) :
    ∃ last, EndsAt last outcome ∧
      .ok configuration.lookahead ::
          (Supply.pulls (parser.elementsRead steps (parser.settle configuration)).length
            configuration.input).1 =
        (parser.elementsRead steps (parser.settle configuration)).map .ok ++ [last] ∧
      (Supply.pulls (parser.elementsRead steps (parser.settle configuration)).length
        configuration.input).2 = rest := by
  induction steps generalizing configuration with
  | zero =>
    cases accepted : parser.accepts configuration.stack configuration.lookahead with
    | true =>
      rw [settle_of_accepts accepted] at ended ⊢
      cases ended
      exact ⟨_, .derived, rfl, rfl⟩
    | false =>
      rw [settle_of_not_accepts accepted] at ended
      cases ended
  | succ steps ih =>
    cases accepted : parser.accepts configuration.stack configuration.lookahead with
    | true =>
      rw [settle_of_accepts accepted] at ended ⊢
      cases ended
      exact ⟨_, .derived, rfl, rfl⟩
    | false =>
      rw [settle_of_not_accepts accepted] at ended ⊢
      rw [run] at ended
      rw [elementsRead, readBy]
      rcases parser.step_outcome configuration with
        ⟨next, transition⟩ | ⟨notRead, refused⟩ | ⟨error, final, isMove, pulled, failed⟩
      · rw [transition.step_eq] at ended ⊢
        obtain ⟨last, endsAt, isPulled, isRest⟩ := ih ended
        refine ⟨last, endsAt, ?_⟩
        cases transition with
        | read isMove pulled =>
          rw [if_pos isMove, List.singleton_append, List.length_cons, Supply.pulls, pulled]
          exact ⟨congrArg (.ok configuration.lookahead :: ·) isPulled, isRest⟩
        | reduce isMove =>
          rw [if_neg (by simp [isMove])]
          exact ⟨isPulled, isRest⟩
        | insert isMove =>
          rw [if_neg (by simp [isMove])]
          exact ⟨isPulled, isRest⟩
      · rw [refused, reject] at ended ⊢
        rw [if_neg notRead]
        cases steps <;> cases ended <;> exact ⟨_, .refused, rfl, rfl⟩
      · rw [failed] at ended ⊢
        rw [if_pos isMove]
        have isPulled : Supply.pulls 1 configuration.input = ([.error error], final) := by
          rw [Supply.pulls, pulled]
          rfl
        cases steps with
        | zero =>
          cases ended
          exact ⟨_, .failed, by simp [elementsRead, isPulled], by simp [elementsRead, isPulled]⟩
        | succ steps =>
          cases ended
          exact ⟨_, .failed, by simp [elementsRead, isPulled], by simp [elementsRead, isPulled]⟩

/-- When a run ends, it has pulled the elements that it has read, and then the element or the error
that it ends at. -/
theorem pulls_of_run {input rest : σ} {steps : Nat} {outcome : Except ParseError Derivation}
    (ended : parser.run steps (parser.initial input) = some (outcome, rest)) :
    ∃ last, EndsAt last outcome ∧
      Supply.pulls ((parser.elementsRead steps (parser.initial input)).length + 1) input =
        ((parser.elementsRead steps (parser.initial input)).map .ok ++ [last], rest) := by
  cases pulled : Supply.next input with
  | mk first remaining =>
    rw [Supply.pulls, pulled]
    cases first with
    | error error =>
      rw [initial_error pulled] at ended ⊢
      cases steps with
      | zero =>
        cases ended
        exact ⟨_, .failed, rfl⟩
      | succ steps =>
        cases ended
        exact ⟨_, .failed, rfl⟩
    | ok lookahead =>
      rw [initial_eq pulled] at ended ⊢
      obtain ⟨last, endsAt, isPulled, isRest⟩ := pulls_of_run_settle ended
      exact ⟨last, endsAt, Prod.ext isPulled isRest⟩

end Parser

end Precedence
