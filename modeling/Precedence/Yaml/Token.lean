import Precedence.Yaml.Scalar

/-!
# Tokens of a document

A document text is cut into tokens, among them the starts and ends of block collections, which
only the indentation shows. A block collection begins where an entry or a key stands further right
than the collection around it, and ends where a line begins further left.

An implicit key is a node that turns out to be a key when a colon follows it, on the same line and
within 1024 characters. So the place of every node that could be one is remembered, for each level
of flow collections, and the tokens for the key are inserted there when the colon is met.
-/

namespace Precedence.Yaml

/-- A token of a document. -/
inductive Token
  /-- The version of the format that the document follows. -/
  | versionDirective (major minor : Nat)
  /-- A handle of tags and what it stands for. -/
  | tagDirective (handle lead : String)
  /-- The mark of the start of a document. -/
  | documentStart
  /-- The mark of the end of a document. -/
  | documentEnd
  /-- The start of a block sequence. -/
  | blockSequenceStart
  /-- The start of a block mapping. -/
  | blockMappingStart
  /-- The end of a block collection. -/
  | blockEnd
  /-- An opening bracket. -/
  | flowSequenceStart
  /-- A closing bracket. -/
  | flowSequenceEnd
  /-- An opening brace. -/
  | flowMappingStart
  /-- A closing brace. -/
  | flowMappingEnd
  /-- The hyphen before an item. -/
  | blockEntry
  /-- The comma between items. -/
  | flowEntry
  /-- What follows is a key. -/
  | key
  /-- What follows is the value of a key. -/
  | value
  /-- A reference to an anchored node. -/
  | alias (name : String)
  /-- A name for the node that follows. -/
  | anchor (name : String)
  /-- The tag of the node that follows. -/
  | tag (handle suffix : String)
  /-- A scalar, with whether it is plain. -/
  | scalar (text : String) (isPlain : Bool)
  deriving DecidableEq

/-- A node that becomes a key if a colon follows it. -/
structure ImplicitKey where
  /-- The number of tokens before it. -/
  position : Nat
  /-- The number of characters before it. -/
  index : Nat
  /-- Its line. -/
  line : Nat
  /-- Its column. -/
  column : Nat
  /-- Whether anything but a key is a fault here. -/
  isRequired : Bool

/-- What is known while a text is cut into tokens. -/
structure TokenReader where
  /-- The text left. -/
  cursor : Cursor
  /-- The tokens found. -/
  tokens : Array Token
  /-- The columns of the open block collections, the innermost first. -/
  columns : List Nat
  /-- The possible key of each open flow collection, the innermost first, and last that of the
  block collections. -/
  keys : List (Option ImplicitKey)
  /-- Whether an implicit key may begin at the cursor. -/
  allowsKey : Bool

namespace TokenReader

/-- The reader at the start of a text. -/
def ofText (text : List Char) : TokenReader where
  cursor := .ofText text
  tokens := #[]
  columns := []
  keys := [none]
  allowsKey := true

/-- Whether the cursor is inside a flow collection. -/
def inFlow (reader : TokenReader) : Bool :=
  1 < reader.keys.length

/-- The least column of what belongs to the innermost block collection. -/
def minColumn (reader : TokenReader) : Nat :=
  match reader.columns with
  | [] => 0
  | column :: _ => column + 1

/-- Adds a token. -/
def add (reader : TokenReader) (token : Token) : TokenReader :=
  { reader with tokens := reader.tokens.push token }

/-- Adds a token and passes over its characters. -/
def addSign (reader : TokenReader) (token : Token) (length : Nat) : TokenReader :=
  { reader.add token with cursor := reader.cursor.advance length }

/-- Inserts a token after so many others. -/
def insertAt (reader : TokenReader) (position : Nat) (token : Token) : TokenReader :=
  let before := reader.tokens.extract 0 position
  let after := reader.tokens.extract position reader.tokens.size
  { reader with tokens := before.push token ++ after }

/-- Allows or forbids an implicit key at the cursor. -/
def allowKey (reader : TokenReader) (allowsKey : Bool) : TokenReader :=
  { reader with allowsKey }

/-! ## Implicit keys -/

/-- Gives up the possible key of the innermost level; a required one is a fault. -/
def dropKey? (reader : TokenReader) : Option TokenReader :=
  match reader.keys with
  | some key :: keys =>
    if key.isRequired then none else some { reader with keys := none :: keys }
  | _ => some reader

/-- Remembers that a key may begin at the cursor, if keys are allowed there. -/
def noteKey? (reader : TokenReader) : Option TokenReader := do
  if !reader.allowsKey then return reader
  let reader ← reader.dropKey?
  let cursor := reader.cursor
  let key : ImplicitKey := {
    position := reader.tokens.size
    index := cursor.index
    line := cursor.line
    column := cursor.column
    isRequired := !reader.inFlow && reader.columns.head? == some cursor.column }
  return { reader with keys := some key :: reader.keys.tail }

/-- Gives up the possible keys that are on an earlier line or too far back; a required one is a
fault. -/
def expireKeys? (reader : TokenReader) : Option TokenReader := do
  let keys ← reader.keys.mapM fun noted =>
    match noted with
    | none => some none
    | some key =>
      if key.line < reader.cursor.line ∨ key.index + 1024 < reader.cursor.index then
        if key.isRequired then none else some none
      else some (some key)
  return { reader with keys }

/-! ## Indentation -/

/-- The columns of the block collections that a column does not end, and the number of those that
it does. -/
def closeColumns (column : Nat) : List Nat → List Nat × Nat
  | [] => ([], 0)
  | opened :: columns =>
    if column < opened then
      let (kept, closed) := closeColumns column columns
      (kept, closed + 1)
    else (opened :: columns, 0)

/-- Ends the block collections that are further right than a column. -/
def closeRightOf (reader : TokenReader) (column : Nat) : TokenReader :=
  if reader.inFlow then reader
  else
    let (columns, closed) := closeColumns column reader.columns
    { reader with
      columns
      tokens := reader.tokens ++ Array.replicate closed .blockEnd }

/-- Ends every block collection. -/
def closeAll (reader : TokenReader) : TokenReader :=
  if reader.inFlow then reader
  else
    { reader with
      columns := []
      tokens := reader.tokens ++ Array.replicate reader.columns.length .blockEnd }

/-- Begins a block collection at a column further right than the innermost one, with its token
after so many others. -/
def openAt (reader : TokenReader) (column position : Nat) (token : Token) : TokenReader :=
  if reader.inFlow || column < reader.minColumn then reader
  else { reader.insertAt position token with columns := column :: reader.columns }

/-! ## Passing over what is no token -/

/-- Passes over blanks, comments and breaks. A tab is a blank only where no key may begin, and a
break outside flow collections allows one. A byte order mark may begin the text. -/
def skipToToken : Nat → TokenReader → TokenReader
  | 0, reader => reader
  | fuel + 1, reader =>
    let cursor := reader.cursor
    let cursor :=
      if cursor.index = 0 ∧ cursor.isAt '\uFEFF' then cursor.advance 1 else cursor
    let allowsTab := reader.inFlow || !reader.allowsKey
    let cursor :=
      (cursor.skipWhile fun character => character == ' ' || (allowsTab && character == '\t'))
    let cursor := cursor.skipComment
    match cursor.takeBreak? with
    | some (_, cursor) =>
      skipToToken fuel { reader with cursor, allowsKey := reader.allowsKey || !reader.inFlow }
    | none => { reader with cursor }

/-! ## Directives, tags and anchors -/

/-- The number at a cursor, of at most nine digits. -/
def takeNumber? (cursor : Cursor) : Option (Nat × Cursor) :=
  let (digits, cursor) := cursor.takeWhile Char.isDigit
  if digits.isEmpty || 9 < digits.length then none
  else some (digits.foldl (fun value digit => 10 * value + (digit.toNat - '0'.toNat)) 0, cursor)

/-- A version: two numbers with a point between them. -/
def takeVersion? (cursor : Cursor) : Option (Token × Cursor) := do
  let (major, cursor) ← takeNumber? cursor
  if !cursor.isAt '.' then none
  let (minor, cursor) ← takeNumber? (cursor.advance 1)
  return (.versionDirective major minor, cursor)

/-- The handle of a tag: an exclamation mark, a name and perhaps another exclamation mark. -/
def takeTagHandle? (cursor : Cursor) : Option (String × Cursor) :=
  if !cursor.isAt '!' then none
  else
    let (name, cursor) := (cursor.advance 1).takeWhile isNameCharacter
    if cursor.isAt '!' then some (String.ofList ('!' :: name ++ ['!']), cursor.advance 1)
    else some (String.ofList ('!' :: name), cursor)

/-- Whether a character may stand in a tag; the signs of flow collections only in some. -/
def isTagCharacter (allowsFlow : Bool) (character : Char) : Bool :=
  isNameCharacter character || ";/?:@&=+$.%!~*'()".toList.contains character ||
    (allowsFlow && (character == ',' || character == '[' || character == ']'))

/-- The value of the octet written at a cursor by a percent sign and two hexadecimal digits. -/
def takeOctet? (cursor : Cursor) : Option (Nat × Cursor) := do
  if !cursor.isAt '%' then none
  let high ← hexValue? (← cursor.peekAt? 1)
  let low ← hexValue? (← cursor.peekAt? 2)
  return (16 * high + low, cursor.advance 3)

/-- The number of octets of a character in UTF-8, by its first octet. -/
def octetCount? (lead : Nat) : Option Nat :=
  if lead < 0x80 then some 1
  else if 0xC0 ≤ lead ∧ lead < 0xE0 then some 2
  else if 0xE0 ≤ lead ∧ lead < 0xF0 then some 3
  else if 0xF0 ≤ lead ∧ lead < 0xF8 then some 4
  else none

/-- So many further octets of a character. -/
def takeFollowingOctets? : Nat → Cursor → Option (List Char × Cursor)
  | 0, cursor => some ([], cursor)
  | count + 1, cursor => do
    let (octet, cursor) ← takeOctet? cursor
    if octet < 0x80 ∨ 0xC0 ≤ octet then none
    let (octets, cursor) ← takeFollowingOctets? count cursor
    return (Char.ofNat octet :: octets, cursor)

/-- The characters of a tag from a cursor on. An octet written in hexadecimal stands for the
character with its number. -/
def takeTagText? (allowsFlow : Bool) : Nat → Cursor → Option (List Char × Cursor)
  | 0, cursor => some ([], cursor)
  | fuel + 1, cursor =>
    match cursor.peek? with
    | none => some ([], cursor)
    | some character =>
      if !isTagCharacter allowsFlow character then some ([], cursor)
      else if character == '%' then do
        let (lead, cursor) ← takeOctet? cursor
        let (octets, cursor) ← takeFollowingOctets? ((← octetCount? lead) - 1) cursor
        let (text, cursor) ← takeTagText? allowsFlow fuel cursor
        return (Char.ofNat lead :: octets ++ text, cursor)
      else do
        let (text, cursor) ← takeTagText? allowsFlow fuel (cursor.advance 1)
        return (character :: text, cursor)

/-- The non-empty text of a tag from a cursor on. -/
def takeSomeTagText? (allowsFlow : Bool) (cursor : Cursor) : Option (String × Cursor) := do
  let (text, cursor) ← takeTagText? allowsFlow cursor.rest.length cursor
  if text.isEmpty then none else return (String.ofList text, cursor)

/-- A handle of tags and what it stands for. -/
def takeTagDirective? (cursor : Cursor) : Option (Token × Cursor) := do
  let (handle, cursor) ← takeTagHandle? cursor
  if handle ≠ "!" ∧ !handle.endsWith "!" then none
  if !cursor.test isSpaceOrTab then none
  let (lead, cursor) ← takeSomeTagText? true (cursor.skipWhile isSpaceOrTab)
  if !cursor.endsWordAt 0 then none
  return (.tagDirective handle lead, cursor)

/-- A directive, from its percent sign to the end of its line. -/
def takeDirective? (cursor : Cursor) : Option (Token × Cursor) := do
  let (name, cursor) := (cursor.advance 1).takeWhile isNameCharacter
  if !cursor.endsWordAt 0 then none
  let body := cursor.skipWhile isSpaceOrTab
  let (token, cursor) ←
    match String.ofList name with
    | "YAML" => takeVersion? body
    | "TAG" => takeTagDirective? body
    | _ => none
  return (token, ← cursor.finishLine?)

/-- The tag at a cursor: in angle brackets, after a handle, or after a single exclamation mark. -/
def takeTag? (inFlow : Bool) (cursor : Cursor) : Option (Token × Cursor) := do
  let (token, cursor) ←
    if cursor.peekAt? 1 == some '<' then do
      let (suffix, cursor) ← takeSomeTagText? true (cursor.advance 2)
      if !cursor.isAt '>' then none
      pure (Token.tag "" suffix, cursor.advance 1)
    else do
      let (handle, next) ← takeTagHandle? cursor
      if handle ≠ "!" ∧ handle.endsWith "!" then
        let (suffix, next) ← takeSomeTagText? false next
        pure (Token.tag handle suffix, next)
      else
        let (text, next) ← takeTagText? false next.rest.length next
        let suffix := (handle.drop 1).toString ++ String.ofList text
        pure (if suffix.isEmpty then .tag "" "!" else .tag "!" suffix, next)
  if (inFlow && cursor.isAt ',') || cursor.endsWordAt 0 then return (token, cursor) else none

/-- The name after the sign of an anchor or an alias at a cursor. -/
def takeAnchorName? (cursor : Cursor) : Option (String × Cursor) :=
  let (name, cursor) := (cursor.advance 1).takeWhile isNameCharacter
  let ends := cursor.endsWordAt 0 || cursor.test fun character =>
    "?:,]\x7d%@\x60".toList.contains character
  if name.isEmpty || !ends then none else some (String.ofList name, cursor)

/-! ## Tokens -/

/-- Begins a flow collection. -/
def openFlow? (reader : TokenReader) (token : Token) : Option TokenReader := do
  let reader ← reader.noteKey?
  return ({ reader with keys := none :: reader.keys }.allowKey true).addSign token 1

/-- Ends a flow collection. -/
def closeFlow? (reader : TokenReader) (token : Token) : Option TokenReader := do
  let reader ← reader.dropKey?
  let keys := if reader.inFlow then reader.keys.tail else reader.keys
  return ({ reader with keys }.allowKey false).addSign token 1

/-- Begins a block collection at the cursor if it stands further right, which is a fault where no
key may begin; nothing inside a flow collection. -/
def openBlock? (reader : TokenReader) (token : Token) : Option TokenReader :=
  if reader.inFlow then some reader
  else if reader.allowsKey then
    some (reader.openAt reader.cursor.column reader.tokens.size token)
  else none

/-- The hyphen before an item. -/
def takeBlockEntry? (reader : TokenReader) : Option TokenReader := do
  let reader ← (← reader.openBlock? .blockSequenceStart).dropKey?
  return (reader.allowKey true).addSign .blockEntry 1

/-- The question mark before a key. -/
def takeKey? (reader : TokenReader) : Option TokenReader := do
  let reader ← (← reader.openBlock? .blockMappingStart).dropKey?
  return (reader.allowKey !reader.inFlow).addSign .key 1

/-- The colon before a value. It makes a key of the node before it, if that may be one. -/
def takeValue? (reader : TokenReader) : Option TokenReader :=
  match reader.keys with
  | some key :: keys =>
    let reader := (reader.insertAt key.position .key).openAt key.column key.position
      .blockMappingStart
    some (({ reader with keys := none :: keys }.allowKey false).addSign .value 1)
  | _ => do
    let reader ← reader.openBlock? .blockMappingStart
    return (reader.allowKey !reader.inFlow).addSign .value 1

/-- Adds a token that may begin an implicit key, and goes on after it. -/
def takeNodePart? (reader : TokenReader) (take? : Cursor → Option (Token × Cursor)) :
    Option TokenReader := do
  let reader ← reader.noteKey?
  let (token, cursor) ← take? reader.cursor
  return { (reader.add token).allowKey false with cursor }

/-- Adds a quoted scalar. -/
def takeQuotedScalar? (reader : TokenReader) (quote : Char) : Option TokenReader :=
  reader.takeNodePart? fun cursor => do
    let (text, cursor) ← takeQuoted? quote cursor.rest.length (cursor.advance 1)
    return (.scalar (String.ofList text) false, cursor)

/-- Adds a plain scalar; after a break at its end a key may begin. -/
def takePlainScalar? (reader : TokenReader) : Option TokenReader := do
  let reader ← reader.noteKey?
  let cursor := reader.cursor
  let (text, endsLine, cursor) ←
    takePlain? reader.inFlow reader.minColumn cursor.rest.length (.blanks []) cursor
  return { (reader.add (.scalar (String.ofList text) true)).allowKey endsLine with cursor }

/-- Adds a block scalar, after which a key may begin. -/
def takeBlockScalar? (reader : TokenReader) (isLiteral : Bool) : Option TokenReader := do
  let reader ← reader.dropKey?
  let (text, cursor) ← takeBlock? isLiteral reader.minColumn (reader.cursor.advance 1)
  return { (reader.add (.scalar (String.ofList text) false)).allowKey true with cursor }

/-- Adds a directive or a mark of the start or the end of a document. -/
def takeDocumentPart? (reader : TokenReader) (take? : Cursor → Option (Token × Cursor)) :
    Option TokenReader := do
  let reader ← reader.closeAll.dropKey?
  let (token, cursor) ← take? reader.cursor
  return { (reader.add token).allowKey false with cursor }

/-- Whether a plain scalar may begin at a cursor with a character. -/
def beginsPlain (inFlow : Bool) (cursor : Cursor) (character : Char) : Bool :=
  let isSign := "-?:,[]\x7b\x7d#&*!|>'\"%@\x60".toList.contains character
  (!isSign && !isSpaceOrTab character) ||
    (character == '-' && !(cursor.peekAt? 1).any isSpaceOrTab) ||
    (!inFlow && (character == '?' || character == ':') && !cursor.endsWordAt 1)

/-- Adds the token at the cursor, which stands at a character. -/
def takeToken? (reader : TokenReader) (character : Char) : Option TokenReader :=
  let cursor := reader.cursor
  let inFlow := reader.inFlow
  if cursor.column = 0 ∧ character == '%' then reader.takeDocumentPart? takeDirective?
  else if cursor.atMarker '-' then
    reader.takeDocumentPart? fun cursor => some (.documentStart, cursor.advance 3)
  else if cursor.atMarker '.' then
    reader.takeDocumentPart? fun cursor => some (.documentEnd, cursor.advance 3)
  else if character == '[' then reader.openFlow? .flowSequenceStart
  else if character == '\x7b' then reader.openFlow? .flowMappingStart
  else if character == ']' then reader.closeFlow? .flowSequenceEnd
  else if character == '\x7d' then reader.closeFlow? .flowMappingEnd
  else if character == ',' then do
    return ((← reader.dropKey?).allowKey true).addSign .flowEntry 1
  else if character == '-' && cursor.endsWordAt 1 then reader.takeBlockEntry?
  else if character == '?' && (inFlow || cursor.endsWordAt 1) then reader.takeKey?
  else if character == ':' && (inFlow || cursor.endsWordAt 1) then reader.takeValue?
  else if character == '*' then
    reader.takeNodePart? fun cursor => (takeAnchorName? cursor).map fun (name, cursor) =>
      (.alias name, cursor)
  else if character == '&' then
    reader.takeNodePart? fun cursor => (takeAnchorName? cursor).map fun (name, cursor) =>
      (.anchor name, cursor)
  else if character == '!' then reader.takeNodePart? (takeTag? inFlow)
  else if character == '|' && !inFlow then reader.takeBlockScalar? true
  else if character == '>' && !inFlow then reader.takeBlockScalar? false
  else if character == '\'' || character == '"' then reader.takeQuotedScalar? character
  else if beginsPlain inFlow cursor character then reader.takePlainScalar?
  else none

/-- The tokens from the cursor to the end of the text. Each round passes over a character at
least. -/
def readTokens : Nat → TokenReader → Option (List Token)
  | 0, _ => none
  | fuel + 1, reader => do
    let reader ← (reader.skipToToken (reader.cursor.rest.length + 1)).expireKeys?
    let reader := reader.closeRightOf reader.cursor.column
    match reader.cursor.peek? with
    | none => return (← reader.closeAll.dropKey?).tokens.toList
    | some character => readTokens fuel (← reader.takeToken? character)

end TokenReader

/-- The tokens of a document text. -/
def tokens? (text : String) : Option (List Token) :=
  let characters := text.toList
  if characters.all isAllowed then
    (TokenReader.ofText characters).readTokens (characters.length + 1)
  else none

end Precedence.Yaml
