import Precedence.Parser.Run
import Precedence.Proofs.Lexeme.Supply

/-!
# Transitions of a parser

A step of a run either makes a transition to another configuration, which is then settled, or ends
the run with an error. A run that ends with a derivation therefore makes transitions, each from a
configuration that is not accepted, until it comes to one that is. The elements that it reads on
the way are those put on the stack from the input.
-/

namespace Precedence.Parser

variable {σ : Type} {parser : Parser}

/-- Settling a configuration that is not accepted leaves it running. -/
theorem settle_of_not_accepts {configuration : Configuration σ}
    (unaccepted : parser.accepts configuration.stack configuration.lookahead = false) :
    parser.settle configuration = .running configuration := by
  simp [settle, unaccepted]

/-- Settling a configuration that is accepted ends the run with its derivation. -/
theorem settle_of_accepts {configuration : Configuration σ}
    (accepted : parser.accepts configuration.stack configuration.lookahead = true) :
    parser.settle configuration =
      .finished (.ok configuration.derivation) configuration.input := by
  simp [settle, accepted]

variable [Supply σ]

/-- A step from one configuration to the next that does not end the run with an error. -/
inductive Transition (parser : Parser) : Configuration σ → Configuration σ → Prop
  /-- The element that comes next is put on the stack. -/
  | read {configuration : Configuration σ} {next : Element} {rest : σ}
      (isMove : parser.nextMove configuration = .read)
      (pulled : Supply.next configuration.input = (.ok next, rest)) :
      Transition parser configuration
        { stack := configuration.lookahead :: configuration.stack
          derivation := configuration.derivation
          lookahead := next
          insertions := 0
          input := rest }
  /-- A body on top of the stack is replaced by its head. -/
  | reduce {configuration : Configuration σ} {production : Production} {beneath : List Element}
      (isMove : parser.nextMove configuration = .reduce)
      (found : parser.findHandle configuration.stack
        (min configuration.stack.length parser.longestBody) = some (production, beneath)) :
      Transition parser configuration
        { configuration with
          stack := .symbol production.head :: beneath
          derivation := production :: configuration.derivation }
  /-- The empty symbol is put on the stack. -/
  | insert {configuration : Configuration σ} {empty : String}
      (isMove : parser.nextMove configuration = .insert empty)
      (allowed : ∀ limit ∈ parser.insertionLimit, configuration.insertions < limit) :
      Transition parser configuration
        { configuration with
          stack := .symbol empty :: configuration.stack
          insertions := configuration.insertions + 1 }

/-- A transition is what a step does. -/
theorem Transition.step_eq {configuration next : Configuration σ}
    (transition : parser.Transition configuration next) :
    parser.step configuration = parser.settle next := by
  cases transition with
  | read isMove pulled => simp only [step, isMove, pull, pulled]
  | reduce isMove found => simp only [step, isMove, Parser.reduce, found]
  | insert isMove allowed =>
    have room : ¬ ∃ limit ∈ parser.insertionLimit, limit < configuration.insertions + 1 := by
      rintro ⟨limit, declared, exceeded⟩
      have := allowed limit declared
      omega
    simp only [step, isMove, insertEmpty, if_neg room]

/-- A step is a transition, refuses the element that comes next, or meets a lexical error when it
reads. -/
theorem step_outcome (parser : Parser) (configuration : Configuration σ) :
    (∃ next, parser.Transition configuration next) ∨
      (parser.nextMove configuration ≠ .read ∧
        parser.step configuration = reject configuration) ∨
      ∃ error rest, parser.nextMove configuration = .read ∧
        Supply.next configuration.input = (.error error, rest) ∧
        parser.step configuration = .finished (.error (.lexical error)) rest := by
  cases isMove : parser.nextMove configuration with
  | read =>
    cases pulled : Supply.next configuration.input with
    | mk outcome rest =>
      cases outcome with
      | ok next => exact Or.inl ⟨_, .read isMove pulled⟩
      | error error =>
        exact Or.inr (Or.inr ⟨error, rest, rfl, rfl, by simp only [step, isMove, pull, pulled]⟩)
  | reduce =>
    cases found : parser.findHandle configuration.stack
        (min configuration.stack.length parser.longestBody) with
    | some handle => exact Or.inl ⟨_, .reduce isMove found⟩
    | none =>
      exact Or.inr (Or.inl ⟨Move.noConfusion, by simp only [step, isMove, reduce, found]⟩)
  | insert empty =>
    by_cases exceeded : ∃ limit ∈ parser.insertionLimit, limit < configuration.insertions + 1
    · exact Or.inr (Or.inl ⟨Move.noConfusion, by
        simp only [step, isMove, insertEmpty, if_pos exceeded]⟩)
    · refine Or.inl ⟨_, .insert isMove ?_⟩
      intro limit declared
      have : ¬ limit < configuration.insertions + 1 := fun less => exceeded ⟨limit, declared, less⟩
      omega
  | reject => exact Or.inr (Or.inl ⟨Move.noConfusion, by simp only [step, isMove]⟩)

/-- A step is a transition or ends the run with an error. -/
theorem step_cases (parser : Parser) (configuration : Configuration σ) :
    (∃ next, parser.Transition configuration next) ∨
      ∃ error rest, parser.step configuration = .finished (.error error) rest := by
  rcases parser.step_outcome configuration with
    transition | ⟨_, refused⟩ | ⟨error, rest, _, _, failed⟩
  · exact Or.inl transition
  · exact Or.inr ⟨_, _, refused⟩
  · exact Or.inr ⟨_, _, failed⟩

/-- The first configuration of a run with an element that comes next and the rest of the input. -/
def opening (lookahead : Element) (input : σ) : Configuration σ where
  stack := []
  derivation := []
  lookahead
  insertions := 0
  input

/-- A run whose input begins with an element settles its first configuration. -/
theorem initial_eq {input rest : σ} {lookahead : Element}
    (pulled : Supply.next input = (.ok lookahead, rest)) :
    parser.initial input = parser.settle (opening lookahead rest) := by
  simp only [initial, pull, pulled, opening]

/-- A run whose input begins with a lexical error ends with it. -/
theorem initial_error {input rest : σ} {error : LexicalError}
    (pulled : Supply.next input = (.error error, rest)) :
    parser.initial input = .finished (.error (.lexical error)) rest := by
  simp only [initial, pull, pulled]

/-- The element that a step puts on the stack from the input, if any. -/
def readBy (parser : Parser) (configuration : Configuration σ) : List Element :=
  if parser.nextMove configuration = .read then [configuration.lookahead] else []

/-- The elements that a run puts on the stack from the input within so many steps, in order. -/
def elementsRead (parser : Parser) : Nat → Progress σ → List Element
  | _, .finished _ _ => []
  | 0, .running _ => []
  | steps + 1, .running configuration =>
    parser.readBy configuration ++ parser.elementsRead steps (parser.step configuration)

/-- Transitions that lead from one configuration to another, none from a configuration that is
accepted, with the elements read on the way. -/
inductive Leads (parser : Parser) : Configuration σ → List Element → Configuration σ → Prop
  /-- No transition is made. -/
  | refl (configuration : Configuration σ) : Leads parser configuration [] configuration
  /-- A first transition, and others from where it leads. -/
  | step {configuration middle last : Configuration σ} {elements : List Element}
      (unaccepted : parser.accepts configuration.stack configuration.lookahead = false)
      (first : parser.Transition configuration middle)
      (others : Leads parser middle elements last) :
      Leads parser configuration (parser.readBy configuration ++ elements) last

/-- Transitions after others lead on. -/
theorem Leads.trans {configuration middle last : Configuration σ} {earlier later : List Element}
    (first : parser.Leads configuration earlier middle)
    (second : parser.Leads middle later last) :
    parser.Leads configuration (earlier ++ later) last := by
  induction first with
  | refl => exact second
  | step unaccepted transition _ ih =>
    rw [List.append_assoc]
    exact .step unaccepted transition (ih second)

/-- Transitions read elements of the input in order. -/
theorem Leads.reads {configuration last : Configuration σ} {elements : List Element}
    (leads : parser.Leads configuration elements last) :
    Supply.Reads configuration.lookahead configuration.input elements last.lookahead
      last.input := by
  induction leads with
  | refl => exact .refl _ _
  | step _ transition _ ih =>
    rw [readBy]
    cases transition with
    | read isMove pulled =>
      rw [if_pos isMove]
      exact .read pulled ih
    | reduce isMove =>
      rw [if_neg (by simp [isMove])]
      exact ih
    | insert isMove =>
      rw [if_neg (by simp [isMove])]
      exact ih

/-- Reading an element leads to it being on the stack. -/
theorem leads_of_read {configuration : Configuration σ} {next : Element} {rest : σ}
    (unaccepted : parser.accepts configuration.stack configuration.lookahead = false)
    (isMove : parser.nextMove configuration = .read)
    (pulled : Supply.next configuration.input = (.ok next, rest)) :
    parser.Leads configuration [configuration.lookahead]
      ⟨configuration.lookahead :: configuration.stack, configuration.derivation, next, 0,
        rest⟩ := by
  have leads := Leads.step unaccepted (.read isMove pulled) (.refl _)
  rwa [readBy, if_pos isMove] at leads

/-- Inserting the empty symbol leads to it being on the stack, and reads nothing. -/
theorem leads_of_insert {configuration : Configuration σ} {empty : String}
    (unaccepted : parser.accepts configuration.stack configuration.lookahead = false)
    (isMove : parser.nextMove configuration = .insert empty)
    (allowed : ∀ limit ∈ parser.insertionLimit, configuration.insertions < limit) :
    parser.Leads configuration []
      { configuration with
        stack := .symbol empty :: configuration.stack
        insertions := configuration.insertions + 1 } := by
  have leads := Leads.step unaccepted (.insert isMove allowed) (.refl _)
  rwa [readBy, if_neg (by simp [isMove])] at leads

/-- A reduction leads to the head being on the stack, and reads nothing. -/
theorem leads_of_reduce {configuration : Configuration σ} {production : Production}
    {beneath : List Element}
    (unaccepted : parser.accepts configuration.stack configuration.lookahead = false)
    (isMove : parser.nextMove configuration = .reduce)
    (found : parser.findHandle configuration.stack
      (min configuration.stack.length parser.longestBody) = some (production, beneath)) :
    parser.Leads configuration []
      { configuration with
        stack := .symbol production.head :: beneath
        derivation := production :: configuration.derivation } := by
  have leads := Leads.step unaccepted (.reduce isMove found) (.refl _)
  rwa [readBy, if_neg (by simp [isMove])] at leads

/-- A run goes on from where transitions lead, as many steps later. -/
theorem Leads.run_eq {configuration last : Configuration σ} {elements : List Element}
    (leads : parser.Leads configuration elements last) :
    ∃ count, ∀ steps, parser.run (count + steps) (parser.settle configuration) =
      parser.run steps (parser.settle last) := by
  induction leads with
  | refl => exact ⟨0, fun steps => by rw [Nat.zero_add]⟩
  | step unaccepted transition _ ih =>
    obtain ⟨count, goesOn⟩ := ih
    refine ⟨count + 1, fun steps => ?_⟩
    rw [settle_of_not_accepts unaccepted, Nat.add_right_comm, run, transition.step_eq, goesOn]

/-- A run that ends with a derivation is at an accepted configuration, or makes a transition and
then ends with the derivation one step earlier. -/
theorem run_ok_cases {steps : Nat} {configuration : Configuration σ} {derivation : Derivation}
    {rest : σ}
    (ended : parser.run steps (parser.settle configuration) = some (.ok derivation, rest)) :
    (parser.accepts configuration.stack configuration.lookahead = true ∧
      configuration.derivation = derivation ∧ configuration.input = rest) ∨
    ∃ fewer next, steps = fewer + 1 ∧
      parser.accepts configuration.stack configuration.lookahead = false ∧
      parser.Transition configuration next ∧
      parser.run fewer (parser.settle next) = some (.ok derivation, rest) := by
  cases accepted : parser.accepts configuration.stack configuration.lookahead with
  | true =>
    rw [settle_of_accepts accepted] at ended
    simp only [run, Option.some.injEq, Prod.mk.injEq, Except.ok.injEq] at ended
    exact Or.inl ⟨rfl, ended⟩
  | false =>
    rw [settle_of_not_accepts accepted] at ended
    cases steps with
    | zero => cases ended
    | succ fewer =>
      rw [run] at ended
      rcases parser.step_cases configuration with ⟨next, transition⟩ | ⟨error, final, failed⟩
      · rw [transition.step_eq] at ended
        exact Or.inr ⟨fewer, next, rfl, rfl, transition, ended⟩
      · rw [failed] at ended
        simp [run] at ended

/-- A run that ends with a derivation comes to an accepted configuration by transitions. -/
theorem leads_of_run {steps : Nat} {configuration : Configuration σ} {derivation : Derivation}
    {rest : σ}
    (ended : parser.run steps (parser.settle configuration) = some (.ok derivation, rest)) :
    ∃ last, parser.Leads configuration
        (parser.elementsRead steps (parser.settle configuration)) last ∧
      parser.accepts last.stack last.lookahead = true ∧ last.derivation = derivation ∧
      last.input = rest := by
  induction steps generalizing configuration with
  | zero =>
    rcases run_ok_cases ended with ⟨isAccepted, isLast⟩ | ⟨_, _, more, _⟩
    · rw [settle_of_accepts isAccepted, elementsRead]
      exact ⟨configuration, .refl _, isAccepted, isLast⟩
    · cases more
  | succ steps ih =>
    rcases run_ok_cases ended with
      ⟨isAccepted, isLast⟩ | ⟨fewer, next, more, unaccepted, transition, later⟩
    · rw [settle_of_accepts isAccepted, elementsRead]
      exact ⟨configuration, .refl _, isAccepted, isLast⟩
    · cases more
      obtain ⟨last, leads, isLast⟩ := ih later
      rw [settle_of_not_accepts unaccepted, elementsRead, transition.step_eq]
      exact ⟨last, .step unaccepted transition leads, isLast⟩

/-- A run that ends with a derivation from the start of its input comes to an accepted configuration
by transitions from its first one. -/
theorem leads_of_initial {steps : Nat} {input rest : σ} {derivation : Derivation}
    (ended : parser.run steps (parser.initial input) = some (.ok derivation, rest)) :
    ∃ lookahead remaining last, Supply.next input = (.ok lookahead, remaining) ∧
      parser.Leads (opening lookahead remaining)
        (parser.elementsRead steps (parser.initial input)) last ∧
      parser.accepts last.stack last.lookahead = true ∧ last.derivation = derivation ∧
      last.input = rest := by
  cases pulled : Supply.next input with
  | mk outcome remaining =>
    cases outcome with
    | error error =>
      rw [initial_error pulled] at ended
      cases steps <;> simp [run] at ended
    | ok lookahead =>
      rw [initial_eq pulled] at ended ⊢
      obtain ⟨last, reached⟩ := leads_of_run ended
      exact ⟨lookahead, remaining, last, rfl, reached⟩

end Precedence.Parser
