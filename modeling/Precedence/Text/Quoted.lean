import Precedence.Text.Printable

/-!
# Quoted text

Messages show a text between double quotes. Inside, a quote and a backslash follow a backslash,
four controls have short escapes, every other character that is not visible is written by its
code point in hexadecimal, and the rest stand for themselves.
-/

namespace Precedence.Text

/-- The hexadecimal escape of a character: its code point in lower case between braces. -/
def codeEscape (character : Char) : List Char :=
  ['\\', 'u', '\x7b'] ++ Nat.toDigits 16 character.toNat ++ ['\x7d']

/-- One character of a quoted text. -/
def quoteCharacter (character : Char) : List Char :=
  match character with
  | '"' => ['\\', '"']
  | '\\' => ['\\', '\\']
  | '\t' => ['\\', 't']
  | '\n' => ['\\', 'n']
  | '\r' => ['\\', 'r']
  | '\x00' => ['\\', '0']
  | character => if isVisible character then [character] else codeEscape character

/-- A text between double quotes, with its characters escaped. -/
def quoteCharacters (text : List Char) : List Char :=
  '"' :: text.flatMap quoteCharacter ++ ['"']

/-- A string between double quotes, with its characters escaped. -/
def quoted (text : String) : String :=
  String.ofList (quoteCharacters text.toList)

/-- A list of quoted strings between brackets, separated by a comma and a space. -/
def quotedList (texts : List String) : String :=
  "[" ++ ", ".intercalate (texts.map quoted) ++ "]"

end Precedence.Text
