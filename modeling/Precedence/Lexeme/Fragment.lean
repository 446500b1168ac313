import Precedence.Lexeme.Pattern

/-!
# Fragments of a line

A line is cut in three passes: string literals first, then runs of blanks in what is left, then
operators in what is left of that. Each pass takes the leftmost matches that do not overlap and
keeps the text between them, so the fragments of a line spell the line.
-/

namespace Precedence

open Text (isBlank)

/-- What a fragment is, as far as cutting can tell. -/
inductive FragmentKind
  /-- A text between two double quotes. -/
  | stringLiteral
  /-- A run of blanks. -/
  | whitespace
  /-- One of the operators. -/
  | operator
  /-- Anything between those. -/
  | word
  deriving DecidableEq

/-- A piece of a line. -/
structure Fragment where
  /-- What the piece is. -/
  kind : FragmentKind
  /-- The characters of the piece. -/
  text : List Char
  deriving DecidableEq

/-- The number of characters of a fragment, the unit that columns count. -/
def Fragment.width (fragment : Fragment) : Nat :=
  fragment.text.length

/-- A piece of a text cut around the matches of a pattern. -/
structure Piece where
  /-- The characters of the piece. -/
  text : List Char
  /-- Whether the piece is a match, and not the text between two matches. -/
  isMatch : Bool
  deriving DecidableEq

/-- The piece for the text before a match, if there is any; the text is given from its end. -/
def gapBefore (reversed : List Char) : List Piece :=
  if reversed.isEmpty then [] else [⟨reversed.reverse, false⟩]

/-- Cuts a text around the leftmost matches of a pattern that do not overlap. The pattern gives
the length of its match at the front of a text, zero for none; `gap` holds, from its end, the text
since the last match. -/
def cutFrom (matchLength : List Char → Nat) (gap : List Char) : List Char → List Piece
  | [] => gapBefore gap
  | character :: rest =>
    match matchLength (character :: rest) with
    | 0 => cutFrom matchLength (character :: gap) rest
    | length + 1 =>
      gapBefore gap ++ ⟨character :: rest.take length, true⟩ ::
        cutFrom matchLength [] (rest.drop length)
termination_by text => text.length
decreasing_by
  · exact Nat.lt_succ_self _
  · rw [List.length_drop, List.length_cons]
    omega

/-- The pieces of a text around the matches of a pattern. -/
def cut (matchLength : List Char → Nat) (text : List Char) : List Piece :=
  cutFrom matchLength [] text

/-- The piece for a gap spells the gap. -/
theorem flatMap_gapBefore (reversed : List Char) :
    (gapBefore reversed).flatMap Piece.text = reversed.reverse := by
  cases reversed <;> simp [gapBefore]

/-- The pieces spell the gap and the text after it. -/
theorem flatMap_cutFrom (matchLength : List Char → Nat) (gap text : List Char) :
    (cutFrom matchLength gap text).flatMap Piece.text = gap.reverse ++ text := by
  fun_induction cutFrom matchLength gap text with
  | case1 gap => simp [flatMap_gapBefore]
  | case2 gap character rest _ ih => simpa using ih
  | case3 gap character rest length _ ih =>
    simp [flatMap_gapBefore, ih, List.take_append_drop]

/-- The pieces spell the text. -/
theorem flatMap_cut (matchLength : List Char → Nat) (text : List Char) :
    (cut matchLength text).flatMap Piece.text = text := by
  simp [cut, flatMap_cutFrom]

/-- The length of the string literal at the front of a text, up to the next double quote. -/
def stringLiteralLength : List Char → Nat
  | '"' :: rest =>
    if rest.contains '"' then (rest.takeWhile (· != '"')).length + 2 else 0
  | _ => 0

/-- The length of the run of blanks at the front of a text. -/
def blankRunLength (text : List Char) : Nat :=
  (text.takeWhile isBlank).length

/-- The length of the first operator that the text begins with. -/
def operatorLength (text : List Char) : Nat :=
  match operators.find? fun operator => operator.toList.isPrefixOf text with
  | some operator => operator.toList.length
  | none => 0

namespace Fragment

/-- The fragments of a text without string literals and blanks: its operators and the words
between them. -/
def ofSolid (text : List Char) : List Fragment :=
  (cut operatorLength text).map fun piece =>
    ⟨if piece.isMatch then .operator else .word, piece.text⟩

/-- The fragments of a text without string literals: its runs of blanks and the fragments between
them. -/
def ofUnquoted (text : List Char) : List Fragment :=
  (cut blankRunLength text).flatMap fun piece =>
    if piece.isMatch then [⟨.whitespace, piece.text⟩] else ofSolid piece.text

/-- The fragments of a line: its string literals and the fragments between them. -/
def ofLine (line : List Char) : List Fragment :=
  (cut stringLiteralLength line).flatMap fun piece =>
    if piece.isMatch then [⟨.stringLiteral, piece.text⟩] else ofUnquoted piece.text

/-- Cutting pieces further keeps what they spell, if each keeps its own text. -/
theorem flatMap_ofPieces (pieces : List Piece) (fragments : Piece → List Fragment)
    (spelled : ∀ piece, (fragments piece).flatMap Fragment.text = piece.text) :
    (pieces.flatMap fragments).flatMap Fragment.text = pieces.flatMap Piece.text := by
  rw [List.flatMap_assoc]
  exact congrArg (List.flatMap · pieces) (funext spelled)

/-- The fragments of a text without string literals and blanks spell it. -/
theorem flatMap_ofSolid (text : List Char) : (ofSolid text).flatMap Fragment.text = text := by
  rw [ofSolid, List.flatMap_map]
  exact flatMap_cut operatorLength text

/-- The fragments of a text without string literals spell it. -/
theorem flatMap_ofUnquoted (text : List Char) :
    (ofUnquoted text).flatMap Fragment.text = text := by
  rw [ofUnquoted, flatMap_ofPieces, flatMap_cut]
  intro piece
  split
  · exact List.append_nil _
  · exact flatMap_ofSolid piece.text

/-- The fragments of a line spell the line. -/
theorem flatMap_ofLine (line : List Char) : (ofLine line).flatMap Fragment.text = line := by
  rw [ofLine, flatMap_ofPieces, flatMap_cut]
  intro piece
  split
  · exact List.append_nil _
  · exact flatMap_ofUnquoted piece.text

end Fragment

end Precedence
