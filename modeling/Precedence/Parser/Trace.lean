import Precedence.Parser.Run

/-!
# Traces of runs

A trace is the list of moves that lead from the start of a run to a configuration. Every
configuration that a run passes through has one, and the last move of a trace is the move in the
configuration before the last.
-/

namespace Precedence.Parser

variable {σ : Type} [Supply σ]

/-- Moves that lead from the start of a run to a configuration that goes on. -/
inductive Reaches (parser : Parser) (input : σ) : List Move → Configuration σ → Prop
  /-- The start of a run needs no move. -/
  | start {configuration : Configuration σ}
      (started : parser.initial input = .running configuration) :
      Reaches parser input [] configuration
  /-- The move in a configuration leads to the one after it. -/
  | step {moves : List Move} {configuration next : Configuration σ}
      (reached : Reaches parser input moves configuration)
      (stepped : parser.step configuration = .running next) :
      Reaches parser input (moves ++ [parser.nextMove configuration]) next

/-- A run that has reached a configuration goes on from it: the moves made count as steps. -/
theorem run_of_reaches {parser : Parser} {input : σ} {moves : List Move}
    {configuration : Configuration σ} (reached : parser.Reaches input moves configuration)
    (steps : Nat) :
    parser.run (moves.length + steps) (parser.initial input) =
      parser.run steps (.running configuration) := by
  induction reached generalizing steps with
  | start started => simp [started]
  | step _ stepped ih =>
    rw [List.length_append, List.length_singleton, Nat.add_assoc, ih, Nat.add_comm 1, run, stepped]

end Precedence.Parser
