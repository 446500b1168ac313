import Precedence.Yaml.Cursor

/-!
# Scalars of a document

The text of a scalar depends on how it is written. Plain and quoted scalars may go over several
lines: a run of blanks and breaks inside them is folded, so that one break counts as a space and
each further break as itself. Block scalars keep their lines, or fold them, without the
indentation.

Each reader takes a cursor and gives the text and the cursor after it, or nothing for a fault.
Readers that loop are given the number of characters left, which no loop outlives.
-/

namespace Precedence.Yaml

/-! ## Gaps -/

/-- A run of blanks and breaks inside a scalar. -/
inductive Gap
  /-- Blanks of one line. -/
  | blanks (text : List Char)
  /-- Breaks: the first one, unless it is escaped, and the further ones. -/
  | breaks (first : Option Char) (others : List Char)

namespace Gap

/-- The text that a gap counts as. -/
def folded : Gap → List Char
  | .blanks text => text
  | .breaks (some '\n') [] => [' ']
  | .breaks (some '\n') others => others
  | .breaks first others => first.toList ++ others

/-- Whether a gap has a break. -/
def hasBreak : Gap → Bool
  | .blanks _ => false
  | .breaks _ _ => true

/-- The breaks from a cursor on, and the cursor after them and the blanks between them. A tab
left of the column given is a fault. -/
def takeBreaks? (minColumn : Nat) : Nat → Cursor → Option (List Char × Cursor)
  | 0, cursor => some ([], cursor)
  | fuel + 1, cursor =>
    if cursor.isAt '\t' && cursor.column < minColumn then none
    else if cursor.test isSpaceOrTab then takeBreaks? minColumn fuel (cursor.advance 1)
    else
      match cursor.takeBreak? with
      | some (first, cursor) => do
        let (others, cursor) ← takeBreaks? minColumn fuel cursor
        return (first :: others, cursor)
      | none => some ([], cursor)

/-- The gap at a cursor. A tab left of the column given is a fault after a break. -/
def take? (minColumn : Nat) (cursor : Cursor) : Option (Gap × Cursor) :=
  let (text, cursor) := cursor.takeWhile isSpaceOrTab
  match cursor.takeBreak? with
  | some (first, cursor) => do
    let (others, cursor) ← takeBreaks? minColumn cursor.rest.length cursor
    return (.breaks (some first) others, cursor)
  | none => some (.blanks text, cursor)

end Gap

/-! ## Plain scalars -/

/-- Whether a character is a sign of a flow collection. -/
def isFlowSign (character : Char) : Bool :=
  character == ',' || character == '[' || character == ']' || character == '\x7b' ||
    character == '\x7d'

/-- The characters of a plain scalar up to a blank, a break or a sign that ends the scalar. In a
flow collection, a colon right before a sign is a fault. -/
def takePlainRun? (inFlow : Bool) : Nat → Cursor → Option (List Char × Cursor)
  | 0, cursor => some ([], cursor)
  | fuel + 1, cursor =>
    match cursor.peek? with
    | none => some ([], cursor)
    | some character =>
      let next := cursor.peekAt? 1
      if isSpaceOrTab character || isBreak character then some ([], cursor)
      else if inFlow && character == ':' && next.any fun sign => isFlowSign sign || sign == '?' then
        none
      else if (character == ':' && cursor.endsWordAt 1) || (inFlow && isFlowSign character) then
        some ([], cursor)
      else do
        let (run, cursor) ← takePlainRun? inFlow fuel (cursor.advance 1)
        return (character :: run, cursor)

/-- A plain scalar from a cursor after a gap, with whether a break came right before its end.
Outside flow collections, a line that begins left of the column given ends the scalar. -/
def takePlain? (inFlow : Bool) (minColumn : Nat) :
    Nat → Gap → Cursor → Option (List Char × Bool × Cursor)
  | 0, gap, cursor => some ([], gap.hasBreak, cursor)
  | fuel + 1, gap, cursor =>
    if cursor.atDocumentMarker || cursor.isAt '#' then some ([], gap.hasBreak, cursor)
    else do
      let (run, next) ← takePlainRun? inFlow cursor.rest.length cursor
      if run.isEmpty then return ([], gap.hasBreak, cursor)
      let text := gap.folded ++ run
      if !next.test fun character => isSpaceOrTab character || isBreak character then
        return (text, false, next)
      let (gap, next) ← Gap.take? minColumn next
      if !inFlow && next.column < minColumn then return (text, gap.hasBreak, next)
      let (rest, endsLine, next) ← takePlain? inFlow minColumn fuel gap next
      return (text ++ rest, endsLine, next)

/-! ## Quoted scalars -/

/-- The character of an escape with a name of one letter. -/
def namedEscape? (name : Char) : Option Char :=
  match name with
  | '0' => some '\x00'
  | 'a' => some '\x07'
  | 'b' => some '\x08'
  | 't' | '\t' => some '\t'
  | 'n' => some '\n'
  | 'v' => some '\x0b'
  | 'f' => some '\x0c'
  | 'r' => some '\r'
  | 'e' => some '\x1b'
  | ' ' => some ' '
  | '"' => some '"'
  | '/' => some '/'
  | '\\' => some '\\'
  | 'N' => some '\u0085'
  | '_' => some '\u00a0'
  | 'L' => some '\u2028'
  | 'P' => some '\u2029'
  | _ => none

/-- The number of hexadecimal digits of an escape by code point. -/
def codeEscapeLength? (name : Char) : Option Nat :=
  match name with
  | 'x' => some 2
  | 'u' => some 4
  | 'U' => some 8
  | _ => none

/-- The character of the escape at a cursor, which stands at its backslash, and the cursor after
it. -/
def takeEscape? (cursor : Cursor) : Option (Char × Cursor) := do
  let name ← cursor.peekAt? 1
  match codeEscapeLength? name with
  | none =>
    let character ← namedEscape? name
    return (character, cursor.advance 2)
  | some length =>
    let digits := (cursor.rest.drop 2).take length
    let code ← hexNumber? digits
    if digits.length = length ∧ code.isValidChar then
      return (Char.ofNat code, cursor.advance (2 + length))
    else none

/-- The characters of a quoted scalar up to a blank, a break or the closing quote, with whether
an escaped break ends them. -/
def takeQuotedRun? (quote : Char) : Nat → Cursor → Option (List Char × Bool × Cursor)
  | 0, cursor => some ([], false, cursor)
  | fuel + 1, cursor =>
    match cursor.peek? with
    | none => some ([], false, cursor)
    | some character =>
      if isSpaceOrTab character || isBreak character then some ([], false, cursor)
      else if quote == '\'' && character == '\'' && cursor.peekAt? 1 == some '\'' then do
        let (run, escaped, cursor) ← takeQuotedRun? quote fuel (cursor.advance 2)
        return ('\'' :: run, escaped, cursor)
      else if character == quote then some ([], false, cursor)
      else if quote == '"' && character == '\\' then
        if (cursor.peekAt? 1).any isBreak then some ([], true, (cursor.advance 1).skipBreak)
        else do
          let (escape, cursor) ← takeEscape? cursor
          let (run, escaped, cursor) ← takeQuotedRun? quote fuel cursor
          return (escape :: run, escaped, cursor)
      else do
        let (run, escaped, cursor) ← takeQuotedRun? quote fuel (cursor.advance 1)
        return (character :: run, escaped, cursor)

/-- A quoted scalar from a cursor after its opening quote. A mark of the start or the end of a
document at the beginning of a line is a fault, and so is the end of the text. -/
def takeQuoted? (quote : Char) : Nat → Cursor → Option (List Char × Cursor)
  | 0, _ => none
  | fuel + 1, cursor =>
    if cursor.atDocumentMarker || cursor.peek?.isNone then none
    else do
      let (run, escaped, cursor) ← takeQuotedRun? quote cursor.rest.length cursor
      if cursor.isAt quote then return (run, cursor.advance 1)
      let (gap, cursor) ←
        if escaped then
          (Gap.takeBreaks? 0 cursor.rest.length cursor).map fun (others, cursor) =>
            (Gap.breaks none others, cursor)
        else Gap.take? 0 cursor
      let (rest, cursor) ← takeQuoted? quote fuel cursor
      return (run ++ gap.folded ++ rest, cursor)

/-! ## Block scalars -/

/-- What becomes of the breaks at the end of a block scalar. -/
inductive Chomping
  /-- All are dropped. -/
  | strip
  /-- The first one is kept. -/
  | clip
  /-- All are kept. -/
  | keep
  deriving DecidableEq

/-- The chomping sign at a cursor, if there is one. -/
def takeChomping? (cursor : Cursor) : Option (Chomping × Cursor) :=
  match cursor.peek? with
  | some '+' => some (.keep, cursor.advance 1)
  | some '-' => some (.strip, cursor.advance 1)
  | _ => none

/-- The indentation digit at a cursor, zero if there is none; a digit zero is a fault. -/
def takeIncrement? (cursor : Cursor) : Option (Nat × Cursor) :=
  match cursor.peek? with
  | some digit =>
    if digit == '0' then none
    else if digit.isDigit then some (digit.toNat - '0'.toNat, cursor.advance 1)
    else some (0, cursor)
  | none => some (0, cursor)

/-- The chomping and the indentation digit of a block scalar, which stand in either order. -/
def takeBlockHeader? (cursor : Cursor) : Option (Chomping × Nat × Cursor) := do
  match takeChomping? cursor with
  | some (chomping, cursor) =>
    let (increment, cursor) ← takeIncrement? cursor
    return (chomping, increment, cursor)
  | none =>
    let (increment, cursor) ← takeIncrement? cursor
    match takeChomping? cursor with
    | some (chomping, cursor) => return (chomping, increment, cursor)
    | none => return (.clip, increment, cursor)

/-- The breaks of the empty lines from a cursor on, with the greatest column that their spaces
reach, and the cursor at the first character of the next line beyond the indentation. The
indentation is zero when it is not known yet; a tab inside it is a fault. -/
def takeEmptyLines? (indentation : Nat) : Nat → Nat → Cursor → Option (List Char × Nat × Cursor)
  | 0, reached, cursor => some ([], reached, cursor)
  | fuel + 1, reached, cursor =>
    let spaces := (cursor.rest.takeWhile (· == ' ')).length
    let cursor := cursor.advance <|
      if indentation = 0 then spaces else min spaces (indentation - cursor.column)
    let reached := max reached cursor.column
    if (indentation = 0 ∨ cursor.column < indentation) ∧ cursor.isAt '\t' then none
    else
      match cursor.takeBreak? with
      | some (first, cursor) => do
        let (others, reached, cursor) ← takeEmptyLines? indentation fuel reached cursor
        return (first :: others, reached, cursor)
      | none => some ([], reached, cursor)

/-- The lines of a block scalar, each after the breaks before it: the text, the break of the last
line and the breaks after it. A folded scalar turns a break between two lines that do not begin
with a blank into a space, unless further breaks follow it. -/
def takeBlockLines? (isLiteral : Bool) (indentation : Nat) :
    Nat → Option Char → List Char → Bool → Cursor →
      Option (List Char × Option Char × List Char × Cursor)
  | 0, lineBreak, breaks, _, cursor => some ([], lineBreak, breaks, cursor)
  | fuel + 1, lineBreak, breaks, afterBlank, cursor =>
    if cursor.column = indentation ∧ cursor.peek?.isSome then do
      let beginsBlank := cursor.test isSpaceOrTab
      let joint :=
        if !isLiteral && lineBreak == some '\n' && !afterBlank && !beginsBlank then
          if breaks.isEmpty then [' '] else breaks
        else lineBreak.toList ++ breaks
      let (line, cursor) := cursor.takeWhile (!isBreak ·)
      let lineBreak := cursor.takeBreak?.map Prod.fst
      let cursor := cursor.skipBreak
      let (breaks, _, cursor) ← takeEmptyLines? indentation cursor.rest.length 0 cursor
      let (rest, lineBreak, breaks, cursor) ←
        takeBlockLines? isLiteral indentation fuel lineBreak breaks beginsBlank cursor
      return (joint ++ line ++ rest, lineBreak, breaks, cursor)
    else some ([], lineBreak, breaks, cursor)

/-- A block scalar from a cursor after its sign. The content is indented at least to the column
given: by the header's digit beyond the parent when there is one, otherwise as its first line. -/
def takeBlock? (isLiteral : Bool) (minColumn : Nat) (cursor : Cursor) :
    Option (List Char × Cursor) := do
  let (chomping, increment, cursor) ← takeBlockHeader? cursor
  let cursor ← cursor.finishLine?
  let given := if increment = 0 then 0 else minColumn - 1 + increment
  let (breaks, reached, cursor) ← takeEmptyLines? given (cursor.rest.length + 1) 0 cursor
  let indentation := if given = 0 then max reached (max minColumn 1) else given
  let (text, lineBreak, breaks, cursor) ←
    takeBlockLines? isLiteral indentation (cursor.rest.length + 1) none breaks false cursor
  let tail :=
    match chomping with
    | .strip => []
    | .clip => lineBreak.toList
    | .keep => lineBreak.toList ++ breaks
  return (text ++ tail, cursor)

end Precedence.Yaml
