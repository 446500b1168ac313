import Precedence.Lexeme.Basic
import Precedence.Text.Blank

/-!
# Patterns of fragments

A fragment is classified as a whole: it is white space, or it matches exactly one pattern of the
language, or it is uncategorized. Reserved words have the shape of an identifier and are tried
first.

The patterns of words and signs have lists of their own beside the words of the language and the
signs that lines are cut at.
-/

namespace Precedence

open Text (isBlank)

/-- The words of the language that cannot name anything. -/
def reservedWords : List String :=
  ["vars", "begin", "end", "return", "int", "real", "string"]

/-- The signs that lines are cut at; a sign that begins with another one stands before it. -/
def operators : List String :=
  ["==", "!=", "<=", ">=", "+", "-", "*", "/", "%", "=", "<", ">", "(", ")", ":", ";", ","]

/-- What a fragment is. -/
inductive Classification
  /-- A run of blanks. -/
  | whitespace
  /-- A fragment with a token. -/
  | token (token : Token)
  /-- A fragment that matches no pattern. -/
  | uncategorized
  deriving DecidableEq

namespace Pattern

/-- The words that are classified as reserved. -/
def reserved : List String :=
  ["vars", "begin", "end", "return", "int", "real", "string"]

/-- The signs that are classified as operators. -/
def operatorSigns : List String :=
  ["==", "!=", "<=", ">=", "+", "-", "*", "/", "%", "=", "<", ">"]

/-- The signs that are classified as brackets or separators. -/
def specialSigns : List String :=
  ["(", ")", ":", ";", ","]

/-- Whether a fragment is a non-empty run of blanks. -/
def isBlankRun (fragment : List Char) : Bool :=
  !fragment.isEmpty && fragment.all isBlank

/-- Whether a fragment is a text between two double quotes that holds no other. -/
def isStringLiteral : List Char → Bool
  | '"' :: rest => rest.dropWhile (· != '"') == ['"']
  | _ => false

/-- Whether a fragment is a non-empty run of decimal digits. -/
def isInteger (fragment : List Char) : Bool :=
  !fragment.isEmpty && fragment.all Char.isDigit

/-- Whether a fragment is two runs of decimal digits around a point. -/
def isReal (fragment : List Char) : Bool :=
  match fragment.dropWhile Char.isDigit with
  | '.' :: fraction => isInteger (fragment.takeWhile Char.isDigit) && isInteger fraction
  | _ => false

/-- Whether a character may begin a name. -/
def beginsName (character : Char) : Bool :=
  character.isAlpha || character == '_'

/-- Whether a fragment has the shape of a name. -/
def isName : List Char → Bool
  | [] => false
  | first :: rest => beginsName first && rest.all fun next => beginsName next || next.isDigit

end Pattern

open Pattern in
/-- What a whole fragment is. -/
def Classification.ofText (fragment : List Char) : Classification :=
  let text := String.ofList fragment
  if isBlankRun fragment then .whitespace
  else if isStringLiteral fragment then .token ⟨.literal, "string"⟩
  else if isReal fragment then .token ⟨.literal, "real"⟩
  else if isInteger fragment then .token ⟨.literal, "integer"⟩
  else if text ∈ reserved then .token ⟨.reserved, text⟩
  else if text ∈ operatorSigns then .token ⟨.operator, text⟩
  else if text ∈ specialSigns then .token ⟨.special, text⟩
  else if isName fragment then .token ⟨.identifier, "id"⟩
  else .uncategorized

end Precedence
