import Precedence.Grammar.Derivation
import Precedence.Lexeme.Supply
import Precedence.Parser.Basic

/-!
# Runs of a parser

A run is a sequence of steps, one move each, between configurations. It ends when the stack is the
start symbol alone and the end marker comes next, or at the first error. The productions reduced,
last one first, are the rightmost derivation of the input.

`run` follows a run for a number of steps, and `parse` for `stepBound` of them, which is more than
a run takes on a grammar without a cycle of one-symbol bodies whose end marker is no symbol of it.
-/

namespace Precedence

/-- Why parsing failed. -/
inductive ParseError
  /-- The input has a fragment without a pattern. -/
  | lexical (error : LexicalError)
  /-- The next element has no action, or no body is on top of the stack. -/
  | grammatical (error : GrammaticalError)
  /-- The run did not end within the steps allowed. -/
  | unfinished
  deriving DecidableEq

/-- The message of a parse error. -/
def ParseError.message : ParseError → String
  | .lexical error => error.message
  | .grammatical error => error.message
  | .unfinished => "The parser does not finish"

/-- What a parser has between two steps. -/
structure Configuration (σ : Type) where
  /-- The elements stacked, the top first. -/
  stack : List Element
  /-- The productions reduced, the last one first. -/
  derivation : Derivation
  /-- The element that comes next. -/
  lookahead : Element
  /-- The number of empty symbols put on the stack since an element was read. -/
  insertions : Nat
  /-- The rest of the input. -/
  input : σ

/-- How far a run has come. -/
inductive Progress (σ : Type)
  /-- There is a further step. -/
  | running (configuration : Configuration σ)
  /-- The run has ended and left some input. -/
  | finished (outcome : Except ParseError Derivation) (input : σ)

namespace Parser

variable {σ : Type}

/-- A configuration that is accepted ends the run; any other goes on. -/
def settle (parser : Parser) (configuration : Configuration σ) : Progress σ :=
  if parser.accepts configuration.stack configuration.lookahead then
    .finished (.ok configuration.derivation) configuration.input
  else .running configuration

/-- Ends a run at an element that cannot be read. -/
def reject (configuration : Configuration σ) : Progress σ :=
  .finished (.error (.grammatical ⟨configuration.lookahead⟩)) configuration.input

/-- Pulls the next element; a lexical error ends the run. -/
def pull [Supply σ] (parser : Parser) (stack : List Element)
    (derivation : Derivation) (input : σ) : Progress σ :=
  match Supply.next input with
  | (.error error, rest) => .finished (.error (.lexical error)) rest
  | (.ok lookahead, rest) =>
    parser.settle { stack, derivation, lookahead, insertions := 0, input := rest }

/-- Replaces the longest body on top of the stack by its head. -/
def reduce (parser : Parser) (configuration : Configuration σ) : Progress σ :=
  let longest := min configuration.stack.length parser.longestBody
  match parser.findHandle configuration.stack longest with
  | some (production, beneath) =>
    parser.settle { configuration with
      stack := .symbol production.head :: beneath
      derivation := production :: configuration.derivation }
  | none => reject configuration

/-- Puts the empty symbol on the stack, unless the limit is reached. -/
def insertEmpty (parser : Parser) (empty : String) (configuration : Configuration σ) :
    Progress σ :=
  if ∃ limit ∈ parser.insertionLimit, limit < configuration.insertions + 1 then
    reject configuration
  else
    parser.settle { configuration with
      stack := .symbol empty :: configuration.stack
      insertions := configuration.insertions + 1 }

/-- The move in a configuration. -/
def nextMove (parser : Parser) (configuration : Configuration σ) : Move :=
  parser.move (parser.topKind configuration.stack) configuration.lookahead.kind

/-- One step of a run: the move in a configuration, made. -/
def step [Supply σ] (parser : Parser) (configuration : Configuration σ) : Progress σ :=
  match parser.nextMove configuration with
  | .read =>
    parser.pull (configuration.lookahead :: configuration.stack) configuration.derivation
      configuration.input
  | .reduce => parser.reduce configuration
  | .insert empty => parser.insertEmpty empty configuration
  | .reject => reject configuration

/-- The start of a run: an empty stack and the first element of the input. -/
def initial [Supply σ] (parser : Parser) (input : σ) : Progress σ :=
  parser.pull [] [] input

/-- The outcome of a run and the input it leaves, if it ends within so many steps. -/
def run [Supply σ] (parser : Parser) :
    Nat → Progress σ → Option (Except ParseError Derivation × σ)
  | _, .finished outcome rest => some (outcome, rest)
  | 0, .running _ => none
  | steps + 1, .running configuration => parser.run steps (parser.step configuration)

/-- A number of steps for an input of so many elements. The end marker can be read like any other
element when it is a symbol of the grammar, so the bound leaves room for reading it again. -/
def stepBound (parser : Parser) (size : Nat) : Nat :=
  let productions := parser.grammar.productions.length
  let nonTerminals := parser.grammar.nonTerminals.length
  let reads := (size + 1) * (productions + nonTerminals + 1)
  2 * (reads + productions * (reads + 1)) * (nonTerminals + 1) + 1

/-- The derivation of an input of at most so many elements, or why there is none, and the input
left. -/
def parse [Supply σ] (parser : Parser) (size : Nat) (input : σ) :
    Except ParseError Derivation × σ :=
  (parser.run (parser.stepBound size) (parser.initial input)).getD (.error .unfinished, input)

end Parser

end Precedence
