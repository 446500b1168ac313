/-!
# Blanks

A blank is a character with the property `White_Space`. This module tests for blanks, splits a
text into the words between them, and drops the blanks that end a text.
-/

namespace Precedence.Text

/-- Whether a character has the property `White_Space`. -/
def isBlank (character : Char) : Bool :=
  let code := character.toNat
  (0x9 ≤ code && code ≤ 0xD) || code == 0x20 || code == 0x85 || code == 0xA0 || code == 0x1680 ||
    (0x2000 ≤ code && code ≤ 0x200A) || code == 0x2028 || code == 0x2029 || code == 0x202F ||
    code == 0x205F || code == 0x3000

/-- The maximal runs of characters that are not blank, from left to right. -/
def words : List Char → List (List Char)
  | [] => []
  | character :: rest =>
    if isBlank character then words rest
    else
      match rest, words rest with
      | next :: _, word :: others =>
        if isBlank next then [character] :: word :: others else (character :: word) :: others
      | _, others => [character] :: others

/-- The words of a string. -/
def splitWords (text : String) : List String :=
  (words text.toList).map String.ofList

/-- A text without the blanks at its end. -/
def dropBlankEnd (text : List Char) : List Char :=
  (text.reverse.dropWhile isBlank).reverse

/-- Words written one after another with one space between neighbours. -/
def joinWords : List String → String
  | [] => ""
  | [word] => word
  | word :: next :: others => word ++ " " ++ joinWords (next :: others)

end Precedence.Text
