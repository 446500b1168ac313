import Precedence.Lexeme.Fragment

/-!
# Scanning a line

A scan cuts a line in a single pass from left to right. Where it stands it takes a string literal,
or else a run of blanks, or else an operator, or else the word up to the next place where one of
those begins.
-/

namespace Precedence.Fragment

/-- Whether a string literal, a blank or an operator begins a text. -/
def beginsDelimiter (text : List Char) : Bool :=
  0 < stringLiteralLength text || 0 < blankRunLength text || 0 < operatorLength text

/-- The number of characters before the first delimiter of a text. -/
def wordLength : List Char → Nat
  | [] => 0
  | character :: rest =>
    if beginsDelimiter (character :: rest) then 0 else wordLength rest + 1

/-- The kind of the first fragment of a text and the number of its characters. -/
def first (text : List Char) : FragmentKind × Nat :=
  if 0 < stringLiteralLength text then (.stringLiteral, stringLiteralLength text)
  else if 0 < blankRunLength text then (.whitespace, blankRunLength text)
  else if 0 < operatorLength text then (.operator, operatorLength text)
  else (.word, wordLength text)

/-- The first fragment of a text that is not empty has a character. -/
theorem first_pos (character : Char) (rest : List Char) : 0 < (first (character :: rest)).2 := by
  unfold first
  split
  · assumption
  split
  · assumption
  split
  · assumption
  · simp_all [wordLength, beginsDelimiter]

/-- The fragments of a line, taken one after another. -/
def scan : List Char → List Fragment
  | [] => []
  | character :: rest =>
    let found := first (character :: rest)
    ⟨found.1, (character :: rest).take found.2⟩ :: scan ((character :: rest).drop found.2)
termination_by line => line.length
decreasing_by
  have positive := first_pos character rest
  rw [List.length_drop, List.length_cons]
  omega

end Precedence.Fragment
