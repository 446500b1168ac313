import Precedence.Proofs.Dependence

/-!
# How far a run reads

A run pulls one element to begin with and one more for each element it reads, so when it ends it has
pulled exactly one element more than it has read. The end marker is never read, so nothing is pulled
after it. The run ends at what it has pulled last: it refuses that element, or it accepts before
it, or that was a lexical error. Whatever the input holds behind it makes no difference, since only
a step that reads looks at the input at all.

What a run pulls is observed on an input that records it.
-/

namespace Precedence

/-- An input together with what has been pulled from it. -/
structure Recorded (σ : Type) where
  /-- The input left. -/
  input : σ
  /-- What has been pulled, in order. -/
  pulled : List (Except LexicalError Element)

instance {σ : Type} [Supply σ] : Supply (Recorded σ) where
  next recorded :=
    let given := Supply.next recorded.input
    (given.1, ⟨given.2, recorded.pulled ++ [given.1]⟩)

namespace Supply

variable {σ : Type} [Supply σ]

/-- Pulling once more gives one more outcome first. -/
theorem pulls_succ (count : Nat) (input : σ) :
    pulls (count + 1) input = ((next input).1 :: (pulls count (next input).2).1,
      (pulls count (next input).2).2) := rfl

/-- Pulling from a recording input gives what pulling from the input gives, and records it. -/
theorem pulls_recorded (count : Nat) (recorded : Recorded σ) :
    pulls count recorded = ((pulls count recorded.input).1,
      ⟨(pulls count recorded.input).2, recorded.pulled ++ (pulls count recorded.input).1⟩) := by
  induction count generalizing recorded with
  | zero =>
    rw [pulls, pulls, List.append_nil]
  | succ count ih =>
    rw [pulls_succ, pulls_succ, ih]
    simp only [next, List.append_assoc, List.singleton_append]

end Supply

variable {σ τ : Type}

namespace Progress

/-- The input that a run has left. -/
def input : Progress σ → σ
  | .running configuration => configuration.input
  | .finished _ rest => rest

/-- The same progress with another input left. -/
def withInput (progress : Progress σ) (other : τ) : Progress τ :=
  match progress with
  | .running configuration => .running { configuration with input := other }
  | .finished outcome _ => .finished outcome other

end Progress

namespace Parser

variable {parser : Parser}

/-! ## What looks at the input -/

/-- Settling a configuration does not look at its input. -/
theorem settle_withInput (parser : Parser) (configuration : Configuration σ) (other : τ) :
    parser.settle { configuration with input := other } =
        (parser.settle configuration).withInput other ∧
      (parser.settle configuration).input = configuration.input := by
  rw [settle, settle]
  by_cases accepted : parser.accepts configuration.stack configuration.lookahead = true
  · simp only [if_pos accepted]
    exact ⟨rfl, rfl⟩
  · simp only [if_neg accepted]
    exact ⟨rfl, rfl⟩

variable [Supply σ] [Supply τ]

/-- A step that does not read does not look at the input. -/
theorem step_withInput {configuration : Configuration σ}
    (notRead : parser.nextMove configuration ≠ .read) (other : τ) :
    parser.step { configuration with input := other } =
        (parser.step configuration).withInput other ∧
      (parser.step configuration).input = configuration.input := by
  have sameMove : parser.nextMove { configuration with input := other } =
      parser.nextMove configuration := rfl
  rw [step, step, sameMove]
  cases isMove : parser.nextMove configuration with
  | read => exact absurd isMove notRead
  | reduce =>
    rw [reduce, reduce]
    cases parser.findHandle configuration.stack
        (min configuration.stack.length parser.longestBody) with
    | none => exact ⟨rfl, rfl⟩
    | some handle =>
      exact parser.settle_withInput { configuration with
        stack := .symbol handle.1.head :: handle.2
        derivation := handle.1 :: configuration.derivation } other
  | insert empty =>
    simp only [insertEmpty]
    by_cases exceeded : ∃ limit ∈ parser.insertionLimit, limit < configuration.insertions + 1
    · simp only [if_pos exceeded]
      exact ⟨rfl, rfl⟩
    · simp only [if_neg exceeded]
      exact parser.settle_withInput { configuration with
        stack := .symbol empty :: configuration.stack
        insertions := configuration.insertions + 1 } other
  | reject => exact ⟨rfl, rfl⟩

/-- Pulling looks at what the input gives next, and at nothing behind it. -/
theorem pull_withInput (parser : Parser) (stack : List Element) (derivation : Derivation)
    {input : σ} {other : τ} (same : (Supply.next other).1 = (Supply.next input).1) :
    parser.pull stack derivation other =
        (parser.pull stack derivation input).withInput (Supply.next other).2 ∧
      (parser.pull stack derivation input).input = (Supply.next input).2 := by
  rw [pull, pull]
  cases pulled : Supply.next input with
  | mk outcome rest =>
    cases otherPulled : Supply.next other with
    | mk otherOutcome remaining =>
      rw [pulled, otherPulled] at same
      obtain rfl : otherOutcome = outcome := same
      cases otherOutcome with
      | error error => exact ⟨rfl, rfl⟩
      | ok lookahead =>
        exact parser.settle_withInput ⟨stack, derivation, lookahead, 0, rest⟩ remaining

/-- A step that reads looks at what the input gives next, and at nothing behind it. -/
theorem step_read_withInput {configuration : Configuration σ}
    (isMove : parser.nextMove configuration = .read) {other : τ}
    (same : (Supply.next other).1 = (Supply.next configuration.input).1) :
    parser.step { configuration with input := other } =
        (parser.step configuration).withInput (Supply.next other).2 ∧
      (parser.step configuration).input = (Supply.next configuration.input).2 := by
  have sameMove : parser.nextMove { configuration with input := other } = .read := isMove
  simp only [step, isMove, sameMove]
  exact parser.pull_withInput _ _ same

/-- A run that ends does so in the same way with another input left, if as many pulls from it as the
run reads elements give the same. -/
theorem run_withInput {steps : Nat} {progress : Progress σ} {other : τ}
    {outcome : Except ParseError Derivation} {rest : σ}
    (ended : parser.run steps progress = some (outcome, rest))
    (same : (Supply.pulls (parser.elementsRead steps progress).length other).1 =
      (Supply.pulls (parser.elementsRead steps progress).length progress.input).1) :
    parser.run steps (progress.withInput other) =
      some (outcome, (Supply.pulls (parser.elementsRead steps progress).length other).2) := by
  induction steps generalizing progress other with
  | zero =>
    cases progress with
    | finished =>
      cases ended
      rfl
    | running => cases ended
  | succ steps ih =>
    cases progress with
    | finished =>
      cases ended
      rfl
    | running configuration =>
      rw [run] at ended
      rw [elementsRead] at same ⊢
      rw [Progress.withInput, run]
      by_cases isMove : parser.nextMove configuration = .read
      · rw [readBy, if_pos isMove, List.singleton_append, List.length_cons] at same ⊢
        obtain ⟨sameNext, sameLater⟩ := List.cons.inj same
        obtain ⟨stepped, isInput⟩ := step_read_withInput isMove sameNext
        rw [stepped]
        refine ih ended ?_
        rw [isInput]
        exact sameLater
      · obtain ⟨stepped, isInput⟩ := step_withInput isMove other
        rw [readBy, if_neg isMove, List.nil_append] at same ⊢
        rw [stepped]
        refine ih ended ?_
        rw [isInput]
        exact same

/-- A run that ends does so in the same way on every input that gives the same for as many pulls as
the run has made. -/
theorem run_of_same_pulls {steps : Nat} {input : σ} {outcome : Except ParseError Derivation}
    {rest : σ} (ended : parser.run steps (parser.initial input) = some (outcome, rest)) (other : τ)
    (same : (Supply.pulls ((parser.elementsRead steps (parser.initial input)).length + 1) other).1 =
      (Supply.pulls ((parser.elementsRead steps (parser.initial input)).length + 1) input).1) :
    parser.run steps (parser.initial other) = some (outcome,
      (Supply.pulls ((parser.elementsRead steps (parser.initial input)).length + 1) other).2) := by
  obtain ⟨sameNext, sameLater⟩ := List.cons.inj same
  have started : parser.initial other =
        (parser.initial input).withInput (Supply.next other).2 ∧
      (parser.initial input).input = (Supply.next input).2 :=
    parser.pull_withInput [] [] sameNext
  rw [started.1]
  refine run_withInput ended ?_
  rw [started.2]
  exact sameLater

/-! ## What a run that ends has pulled -/

/-- A run that ends has pulled exactly one element more than it has read, where a lexical error
counts as pulled. Nothing is pulled after the end marker. An element that is refused is the last one
pulled, and a lexical error is pulled exactly if the run ends with it. On every input that gives
the same up to there, the run ends in the same way. -/
theorem run_pulls_one_ahead {ruleset : Ruleset} (made : ofRuleset ruleset = .ok parser)
    {steps : Nat} {input : σ} {outcome : Except ParseError Derivation} {rest : σ}
    (ended : parser.run steps (parser.initial input) = some (outcome, rest)) :
    ∃ pulled, parser.run steps (parser.initial (Recorded.mk input [])) =
        some (outcome, ⟨rest, pulled⟩) ∧
      pulled.length = (parser.elementsRead steps (parser.initial input)).length + 1 ∧
      pulled.dropLast = (parser.elementsRead steps (parser.initial input)).map .ok ∧
      (∀ index element, pulled[index]? = some (.ok element) →
        element.kind = parser.endMarker → index + 1 = pulled.length) ∧
      (∀ error, outcome = .error (.grammatical error) →
        pulled.getLast? = some (.ok error.lookahead)) ∧
      (∀ error, .error error ∈ pulled ↔ outcome = .error (.lexical error)) ∧
      ∀ (τ : Type) [Supply τ] (other : τ), (Supply.pulls pulled.length other).1 = pulled →
        parser.run steps (parser.initial other) =
          some (outcome, (Supply.pulls pulled.length other).2) := by
  have accepted := (accepted_of_ruleset made).1
  obtain ⟨last, endsAt, isPulled⟩ := pulls_of_run ended
  have fresh : ∀ element ∈ parser.elementsRead steps (parser.initial input),
      element.kind ≠ parser.endMarker := kind_ne_endMarker_of_read accepted
  have sameWay := fun (τ : Type) [Supply τ] (other : τ) => run_of_same_pulls ended other
  rw [isPulled] at sameWay
  generalize parser.elementsRead steps (parser.initial input) = read at *
  obtain ⟨pulled, isLog⟩ : ∃ pulled, pulled = read.map Except.ok ++ [last] := ⟨_, rfl⟩
  rw [← isLog] at isPulled sameWay
  have isLength : pulled.length = read.length + 1 := by simp [isLog]
  have readFirst : pulled.dropLast = read.map .ok := by rw [isLog, List.dropLast_concat]
  have recorded : parser.run steps (parser.initial (Recorded.mk input [])) =
      some (outcome, ⟨rest, pulled⟩) := by
    have recording := sameWay (Recorded σ) ⟨input, []⟩
    rw [Supply.pulls_recorded, isPulled] at recording
    exact recording rfl
  have endsThere : ∀ index element, pulled[index]? = some (.ok element) →
      element.kind = parser.endMarker → index + 1 = pulled.length := by
    intro index element isElement isEnd
    by_contra early
    have bound := (List.getElem?_eq_some_iff.mp isElement).1
    have within : index < read.length := by omega
    rw [isLog, List.getElem?_append_left (by rwa [List.length_map]), List.getElem?_map]
      at isElement
    obtain ⟨found, isFound, isSame⟩ := Option.map_eq_some_iff.mp isElement
    cases isSame
    exact fresh element (List.mem_of_getElem? isFound) isEnd
  have refusesLast : ∀ error, outcome = .error (.grammatical error) →
      pulled.getLast? = some (.ok error.lookahead) := by
    rintro error rfl
    cases endsAt
    rw [isLog, List.getLast?_concat]
  have failsWith : ∀ error, .error error ∈ pulled ↔ outcome = .error (.lexical error) := by
    intro error
    rw [isLog]
    constructor
    · intro held
      rcases List.mem_append.mp held with isRead | isLast
      · obtain ⟨_, _, isSame⟩ := List.mem_map.mp isRead
        cases isSame
      · obtain rfl := List.mem_singleton.mp isLast
        cases endsAt
        rfl
    · rintro rfl
      cases endsAt
      exact List.mem_append_right _ (List.mem_singleton_self _)
  rw [← isLength] at sameWay
  exact ⟨pulled, recorded, isLength, readFirst, endsThere, refusesLast, failsWith, sameWay⟩

/-- A name and the end marker are pulled, and only the name is read. The name behind the end marker
makes no difference. -/
theorem run_pulls_one_ahead_delimited :
    let input := SymbolSupply.mk ["id", ";", "id"] ";"
    ofRuleset .delimited = .ok delimited ∧
      ∃ derivation rest pulled,
        delimited.run 20 (delimited.initial input) = some (.ok derivation, rest) ∧
        delimited.run 20 (delimited.initial (Recorded.mk input [])) =
          some (.ok derivation, ⟨rest, pulled⟩) ∧
        pulled = [.ok (.symbol "id"), .ok (.symbol ";")] ∧
        delimited.elementsRead 20 (delimited.initial input) = [.symbol "id"] ∧
        delimited.run 20 (delimited.initial (SymbolSupply.mk ["id", ";"] "?")) =
          some (.ok derivation, ⟨[], "?"⟩) := by
  intro input
  have ended : delimited.run 20 (delimited.initial input) =
      some (.ok [⟨"S", ["id"]⟩], ⟨["id"], ";"⟩) := by rfl
  have recordedEnded : delimited.run 20 (delimited.initial (Recorded.mk input [])) =
      some (.ok [⟨"S", ["id"]⟩],
        ⟨⟨["id"], ";"⟩, [.ok (.symbol "id"), .ok (.symbol ";")]⟩) := by rfl
  obtain ⟨pulled, recorded, _, _, _, _, _, sameWay⟩ :=
    run_pulls_one_ahead ofRuleset_delimited ended
  have isPulled : pulled = [.ok (.symbol "id"), .ok (.symbol ";")] := by
    rw [recordedEnded] at recorded
    cases recorded
    rfl
  refine ⟨ofRuleset_delimited, _, _, pulled, ended, recorded, isPulled, by rfl, ?_⟩
  subst isPulled
  exact sameWay SymbolSupply ⟨["id", ";"], "?"⟩ rfl

end Parser

end Precedence
