import Precedence.Lexeme.Fragment
import Precedence.Text.Lines

/-!
# Lexicons

A lexicon holds each token met so far, once, in the order of first occurrence, and an index of the
places where they stand. Reading a line gives its lexemes, each with the token that the lexicon
hands out for its fragment. A line fails at its first fragment without a pattern; the tokens of the
fragments before it are entered all the same.
-/

namespace Precedence

open Text (splitLines)

/-- The tokens met so far. -/
structure Lexicon where
  /-- Each token met, in the order of first occurrence. -/
  tokens : List Token := []
  /-- The place of each token met, the newest one first. -/
  index : List (Token × Nat) := []
  deriving DecidableEq

namespace Lexicon

/-- The lexicon of a reader that has met no token. -/
def empty : Lexicon := {}

/-- The place of a token among the tokens met. -/
def position? (lexicon : Lexicon) (token : Token) : Option Nat :=
  lexicon.index.lookup token

/-- Hands out a token, from the place that the index has for it, or else from a new entry at the end
of the lexicon. -/
def intern (lexicon : Lexicon) (token : Token) : SharedToken × Lexicon :=
  match lexicon.position? token with
  | some place => (⟨token, some place⟩, lexicon)
  | none =>
    let place := lexicon.tokens.length
    (⟨token, some place⟩, ⟨lexicon.tokens ++ [token], (token, place) :: lexicon.index⟩)

/-- The token that a lexicon hands out is the one asked for. -/
@[simp] theorem token_intern (lexicon : Lexicon) (token : Token) :
    (lexicon.intern token).1.token = token := by
  rw [intern]
  split <;> rfl

/-- The lexemes of the fragments of a line from a column on, and the lexicon after them. -/
def readFragments (line : Nat) :
    List Fragment → Nat → Lexicon → Except LexicalError (List Lexeme) × Lexicon
  | [], _, lexicon => (.ok [], lexicon)
  | fragment :: fragments, column, lexicon =>
    let text := String.ofList fragment.text
    match Classification.ofText fragment.text with
    | .whitespace => readFragments line fragments (column + fragment.width) lexicon
    | .uncategorized => (.error ⟨⟨text, line, column, Token.uncategorized⟩⟩, lexicon)
    | .token token =>
      let (shared, lexicon) := lexicon.intern token
      match readFragments line fragments (column + fragment.width) lexicon with
      | (.ok lexemes, lexicon) => (.ok (⟨text, line, column, shared⟩ :: lexemes), lexicon)
      | (.error error, lexicon) => (.error error, lexicon)

/-- The lexemes of one line with its number, and the lexicon after it. -/
def readLine (lexicon : Lexicon) (line : Nat) (text : List Char) :
    Except LexicalError (List Lexeme) × Lexicon :=
  readFragments line (Fragment.ofLine text) 0 lexicon

/-- The lexemes of lines numbered from the one given, up to the first line that fails, and the
lexicon after them. -/
def readLines (line : Nat) :
    List (List Char) → Lexicon → Except LexicalError (List Lexeme) × Lexicon
  | [], lexicon => (.ok [], lexicon)
  | text :: texts, lexicon =>
    match lexicon.readLine line text with
    | (.error error, lexicon) => (.error error, lexicon)
    | (.ok lexemes, lexicon) =>
      match readLines (line + 1) texts lexicon with
      | (.ok others, lexicon) => (.ok (lexemes ++ others), lexicon)
      | (.error error, lexicon) => (.error error, lexicon)

/-- The lexemes of a source, and the lexicon after it. -/
def readSource (lexicon : Lexicon) (source : String) :
    Except LexicalError (List Lexeme) × Lexicon :=
  readLines 0 (splitLines source.toList) lexicon

end Lexicon

end Precedence
