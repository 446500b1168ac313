/-!
# JSON texts

A value of the data format and its two written forms. The compact form has no space at all; the
indented form puts every item and every field on a line of its own, two spaces deeper than what
holds it, and a space after each colon. Fields are written in the order given, and the only
characters escaped are the quote, the backslash and the controls below the space.
-/

namespace Precedence.Text

/-- A value of the data format; an object is a list of fields in written order. -/
inductive Json
  /-- A natural number. -/
  | number (value : Nat)
  /-- A text. -/
  | text (value : String)
  /-- A list of values. -/
  | array (items : List Json)
  /-- Named values in written order. -/
  | object (fields : List (String × Json))

namespace Json

/-- The escape of a control that has no short one: four hexadecimal digits. -/
def controlEscape (character : Char) : List Char :=
  let digits := Nat.toDigits 16 character.toNat
  ['\\', 'u'] ++ List.replicate (4 - digits.length) '0' ++ digits

/-- One character of a written text. -/
def escapeCharacter (character : Char) : List Char :=
  match character with
  | '"' => ['\\', '"']
  | '\\' => ['\\', '\\']
  | '\x08' => ['\\', 'b']
  | '\x0c' => ['\\', 'f']
  | '\n' => ['\\', 'n']
  | '\r' => ['\\', 'r']
  | '\t' => ['\\', 't']
  | character => if character.toNat < 0x20 then controlEscape character else [character]

/-- A text between quotes, with its characters escaped. -/
def escape (text : String) : String :=
  String.ofList ('"' :: text.toList.flatMap escapeCharacter ++ ['"'])

mutual

/-- The form without spaces. -/
def compact : Json → String
  | .number value => toString value
  | .text value => escape value
  | .array items => "[" ++ ",".intercalate (compactItems items) ++ "]"
  | .object fields => "\x7b" ++ ",".intercalate (compactFields fields) ++ "\x7d"

/-- The forms without spaces of the items of a list. -/
def compactItems : List Json → List String
  | [] => []
  | item :: items => compact item :: compactItems items

/-- The forms without spaces of the fields of an object. -/
def compactFields : List (String × Json) → List String
  | [] => []
  | (name, value) :: fields => (escape name ++ ":" ++ compact value) :: compactFields fields

end

/-- Written items between brackets, one a line; nothing between the brackets when there are
none. -/
def enclose (depth : Nat) (opening closing : String) (items : List String) : String :=
  let indent (levels : Nat) : String := String.ofList (List.replicate (2 * levels) ' ')
  if items.isEmpty then opening ++ closing
  else
    opening ++ "\n" ++ (",\n").intercalate (items.map (indent (depth + 1) ++ ·)) ++ "\n" ++
      indent depth ++ closing

mutual

/-- The form with one item a line, for a value that stands at a depth. -/
def indentedAt (depth : Nat) : Json → String
  | .number value => toString value
  | .text value => escape value
  | .array items => enclose depth "[" "]" (indentedItems (depth + 1) items)
  | .object fields => enclose depth "\x7b" "\x7d" (indentedFields (depth + 1) fields)

/-- The forms with one item a line of the items of a list at a depth. -/
def indentedItems (depth : Nat) : List Json → List String
  | [] => []
  | item :: items => indentedAt depth item :: indentedItems depth items

/-- The forms with one item a line of the fields of an object at a depth. -/
def indentedFields (depth : Nat) : List (String × Json) → List String
  | [] => []
  | (name, value) :: fields =>
    (escape name ++ ": " ++ indentedAt depth value) :: indentedFields depth fields

end

/-- The form with one item a line. -/
def indented (value : Json) : String :=
  value.indentedAt 0

end Json

end Precedence.Text
