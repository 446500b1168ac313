/-!
# Lines

A line feed ends a line, together with a carriage return right before it. Text after the last
line feed is a line of its own when it is not empty, and a carriage return elsewhere is an
ordinary character.
-/

namespace Precedence.Text

/-- The lines of a text, without what ends them. -/
def splitLines : List Char → List (List Char)
  | [] => []
  | '\n' :: rest => [] :: splitLines rest
  | '\r' :: '\n' :: rest => [] :: splitLines rest
  | character :: rest =>
    match splitLines rest with
    | [] => [[character]]
    | line :: lines => (character :: line) :: lines

/-- Lines written one after another, each ended by a line feed. -/
def joinLines (lines : List (List Char)) : List Char :=
  lines.flatMap (· ++ ['\n'])

end Precedence.Text
