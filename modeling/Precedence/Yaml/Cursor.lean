/-!
# Cursors in a document text

The text of a document is read through a cursor, which knows the characters left and the place of
the first of them. A line break is a carriage return, a line feed, both in this order, a next-line
character, a line separator or a paragraph separator; what is read for it is a line feed, except
that the two separators stand for themselves.
-/

namespace Precedence.Yaml

/-- Whether a character may stand in a document. -/
def isAllowed (character : Char) : Bool :=
  let code := character.toNat
  code == 0x9 || code == 0xA || code == 0xD || (0x20 ≤ code && code ≤ 0x7E) || code == 0x85 ||
    (0xA0 ≤ code && code ≤ 0xFFFD) || 0x10000 ≤ code

/-- Whether a character breaks a line. -/
def isBreak (character : Char) : Bool :=
  character == '\n' || character == '\r' || character == '\u0085' || character == '\u2028' ||
    character == '\u2029'

/-- Whether a character is a space or a tab. -/
def isSpaceOrTab (character : Char) : Bool :=
  character == ' ' || character == '\t'

/-- Whether a character may stand in the name of an anchor or of a directive. -/
def isNameCharacter (character : Char) : Bool :=
  character.isAlphanum || character == '_' || character == '-'

/-- The value of a hexadecimal digit. -/
def hexValue? (character : Char) : Option Nat :=
  if character.isDigit then some (character.toNat - '0'.toNat)
  else if 'a' ≤ character ∧ character ≤ 'f' then some (character.toNat - 'a'.toNat + 10)
  else if 'A' ≤ character ∧ character ≤ 'F' then some (character.toNat - 'A'.toNat + 10)
  else none

/-- The number that hexadecimal digits write. -/
def hexNumber? (digits : List Char) : Option Nat :=
  digits.foldlM (fun value digit => (hexValue? digit).map (16 * value + ·)) 0

/-- The characters left of a document, and the place of the first of them. -/
structure Cursor where
  /-- The characters left. -/
  rest : List Char
  /-- The number of characters before. -/
  index : Nat
  /-- The number of lines before. -/
  line : Nat
  /-- The number of characters before on the same line. -/
  column : Nat

namespace Cursor

/-- The cursor at the start of a text. -/
def ofText (text : List Char) : Cursor := ⟨text, 0, 0, 0⟩

/-- The first character left. -/
def peek? (cursor : Cursor) : Option Char :=
  cursor.rest.head?

/-- The character left after so many others. -/
def peekAt? (cursor : Cursor) (offset : Nat) : Option Char :=
  cursor.rest[offset]?

/-- Whether the first character left is the one given. -/
def isAt (cursor : Cursor) (character : Char) : Bool :=
  cursor.peek? == some character

/-- Whether the character left after so many others is a blank or a break, or missing. -/
def endsWordAt (cursor : Cursor) (offset : Nat) : Bool :=
  match cursor.peekAt? offset with
  | none => true
  | some character => isSpaceOrTab character || isBreak character

/-- Whether the first character left satisfies a test. -/
def test (cursor : Cursor) (accept : Char → Bool) : Bool :=
  cursor.peek?.any accept

/-- Passes over so many characters of a line. -/
def advance (cursor : Cursor) (count : Nat) : Cursor where
  rest := cursor.rest.drop count
  index := cursor.index + count
  line := cursor.line
  column := cursor.column + count

/-- Passes over the characters of a line that satisfy a test. -/
def skipWhile (cursor : Cursor) (accept : Char → Bool) : Cursor :=
  cursor.advance (cursor.rest.takeWhile accept).length

/-- The characters of a line that satisfy a test, and the cursor after them. -/
def takeWhile (cursor : Cursor) (accept : Char → Bool) : List Char × Cursor :=
  (cursor.rest.takeWhile accept, cursor.skipWhile accept)

/-- Passes over what is left of a line. -/
def skipLine (cursor : Cursor) : Cursor :=
  cursor.skipWhile (!isBreak ·)

/-- Passes over a comment, if there is one. -/
def skipComment (cursor : Cursor) : Cursor :=
  if cursor.isAt '#' then cursor.skipLine else cursor

/-- The character that the break at the cursor stands for, if there is one, and the cursor at the
start of the next line. -/
def takeBreak? (cursor : Cursor) : Option (Char × Cursor) :=
  match cursor.rest with
  | '\r' :: '\n' :: rest => some ('\n', ⟨rest, cursor.index + 2, cursor.line + 1, 0⟩)
  | character :: rest =>
    if isBreak character then
      let kept := if character == '\u2028' || character == '\u2029' then character else '\n'
      some (kept, ⟨rest, cursor.index + 1, cursor.line + 1, 0⟩)
    else none
  | [] => none

/-- Passes over a break, if there is one. -/
def skipBreak (cursor : Cursor) : Cursor :=
  match cursor.takeBreak? with
  | some (_, next) => next
  | none => cursor

/-- Whether a line begins with three of the same character and nothing right after them. -/
def atMarker (cursor : Cursor) (character : Char) : Bool :=
  cursor.column == 0 && cursor.rest.take 3 == [character, character, character] &&
    cursor.endsWordAt 3

/-- Whether a line begins with a mark of the start or the end of a document. -/
def atDocumentMarker (cursor : Cursor) : Bool :=
  cursor.atMarker '-' || cursor.atMarker '.'

/-- Passes over blanks, a comment and the break at the end of a line; something else there is a
fault. -/
def finishLine? (cursor : Cursor) : Option Cursor :=
  let cursor := (cursor.skipWhile isSpaceOrTab).skipComment
  if cursor.peek?.all isBreak then some cursor.skipBreak else none

end Cursor

end Precedence.Yaml
