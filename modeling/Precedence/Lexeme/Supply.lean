import Precedence.Lexeme.Lexicon

/-!
# Supplies of elements

A parser pulls its input one element at a time. A source supply reads a line of its source only
when the lines before it are used up; a symbol supply holds symbols of the grammar. Both give the
end marker when the input is used up, and go on giving it.
-/

namespace Precedence

open Text (isBlank splitLines)

/-- A type of inputs that give their elements one at a time. -/
class Supply (σ : Type) where
  /-- The next element, or the lexical error met instead, and the input after it. -/
  next : σ → Except LexicalError Element × σ

/-- What pulling gives, so many times, and the input after it. -/
def Supply.pulls {σ : Type} [Supply σ] :
    Nat → σ → List (Except LexicalError Element) × σ
  | 0, input => ([], input)
  | count + 1, input =>
    let (first, input) := Supply.next input
    let (others, input) := pulls count input
    (first :: others, input)

/-- Whether an input gives some elements and then the end marker for ever. -/
def Supply.Gives {σ : Type} [Supply σ] (input : σ) (elements : List Element)
    (endMarker : String) : Prop :=
  ∀ count, (pulls count input).1 =
    ((elements ++ List.replicate count (Element.symbol endMarker)).take count).map .ok

/-- A source whose lines are read on demand. -/
structure SourceSupply where
  /-- The lines not read yet. -/
  lines : List (List Char)
  /-- The number of the first line not read yet. -/
  line : Nat
  /-- The tokens met so far. -/
  lexicon : Lexicon
  /-- The lexemes read and not handed out yet. -/
  pending : List Lexeme
  /-- The lexemes handed out, in order. -/
  consumed : Array Lexeme
  /-- What is given when the source is used up. -/
  endMarker : String

namespace SourceSupply

/-- The supply at the start of a source. -/
def ofSource (source : String) (lexicon : Lexicon) (endMarker : String) : SourceSupply where
  lines := splitLines source.toList
  line := 0
  lexicon
  pending := []
  consumed := #[]
  endMarker

/-- The next element of a supply with nothing pending and the given lines left. A line without
lexemes is passed over, and after a line that fails the lines below it are left. -/
def nextOfLines (supply : SourceSupply) :
    List (List Char) → Except LexicalError Element × SourceSupply
  | [] => (.ok (.symbol supply.endMarker), { supply with lines := [] })
  | text :: texts =>
    let (outcome, lexicon) := supply.lexicon.readLine supply.line text
    let rest := { supply with lines := texts, line := supply.line + 1, lexicon }
    match outcome with
    | .error error => (.error error, rest)
    | .ok [] => rest.nextOfLines texts
    | .ok (lexeme :: pending) =>
      (.ok (.lexeme lexeme), { rest with pending, consumed := rest.consumed.push lexeme })

/-- The next lexeme, the lexical error met instead, or the end marker. -/
def next (supply : SourceSupply) : Except LexicalError Element × SourceSupply :=
  match supply.pending with
  | lexeme :: pending =>
    (.ok (.lexeme lexeme), { supply with pending, consumed := supply.consumed.push lexeme })
  | [] => supply.nextOfLines supply.lines

instance : Supply SourceSupply := ⟨next⟩

end SourceSupply

/-- Symbols of the grammar, given in order. -/
structure SymbolSupply where
  /-- The symbols not handed out yet. -/
  symbols : List String
  /-- What is given when the symbols are used up. -/
  endMarker : String
  deriving DecidableEq

namespace SymbolSupply

/-- One symbol for each character of a text that is not a blank. -/
def ofCharacters (text : String) (endMarker : String) : SymbolSupply :=
  ⟨(text.toList.filter (!isBlank ·)).map Char.toString, endMarker⟩

/-- The next symbol, or the end marker. -/
def next (supply : SymbolSupply) : Except LexicalError Element × SymbolSupply :=
  match supply.symbols with
  | symbol :: symbols => (.ok (.symbol symbol), { supply with symbols })
  | [] => (.ok (.symbol supply.endMarker), supply)

instance : Supply SymbolSupply := ⟨next⟩

end SymbolSupply

end Precedence
