import Precedence.Token
import Precedence.Text.Quoted

/-!
# Lexemes and elements

A lexeme is a fragment of source text with its place and its token. An element is what a parser
reads and stacks: a lexeme, or a bare symbol of the grammar. Parsing looks only at the kind of an
element.
-/

namespace Precedence

open Text (quoted)

/-- A classified fragment of source text. -/
structure Lexeme where
  /-- The characters of the fragment. -/
  text : String
  /-- The number of its line, from zero. -/
  line : Nat
  /-- The number of characters before it on its line. -/
  column : Nat
  /-- Its classification, as it was handed out to it. -/
  shared : SharedToken
  deriving DecidableEq

namespace Lexeme

/-- The classification of a lexeme. -/
def token (lexeme : Lexeme) : Token :=
  lexeme.shared.token

/-- The terminal of the grammar that a lexeme stands for. -/
def kind (lexeme : Lexeme) : String :=
  lexeme.token.kind

/-- The line and the column, both counted from one. -/
def place (lexeme : Lexeme) : String :=
  s!"{lexeme.line + 1}:{lexeme.column + 1}"

/-- The quoted text, the token and the place. -/
def display (lexeme : Lexeme) : String :=
  s!"{quoted lexeme.text} {lexeme.token.display} at {lexeme.place}"

end Lexeme

/-- An item that a parser reads or stacks. -/
inductive Element
  /-- A bare symbol: a terminal, the head of a production, the empty symbol or the end marker. -/
  | symbol (name : String)
  /-- A lexeme of the source. -/
  | lexeme (item : Lexeme)
  deriving DecidableEq

namespace Element

/-- The symbol of the grammar that an element counts as. -/
def kind : Element → String
  | .symbol name => name
  | .lexeme item => item.kind

/-- The quoted symbol, or the written form of the lexeme. -/
def display : Element → String
  | .symbol name => quoted name
  | .lexeme item => item.display

end Element

/-- A fragment of the source that matches no pattern. -/
structure LexicalError where
  /-- The offending fragment. -/
  lexeme : Lexeme
  deriving DecidableEq

/-- The place and the quoted text of the offending fragment. -/
def LexicalError.message (error : LexicalError) : String :=
  s!"Lexical error at {error.lexeme.place}: unrecognized fragment {quoted error.lexeme.text}"

/-- An element that no action of the parser can read. -/
structure GrammaticalError where
  /-- The element that was next to be read. -/
  lookahead : Element
  deriving DecidableEq

/-- The unexpected element, with its place when it is a lexeme. -/
def GrammaticalError.message (error : GrammaticalError) : String :=
  match error.lookahead with
  | .lexeme lexeme =>
    s!"Grammatical error at {lexeme.place}: unexpected {quoted lexeme.text} ({lexeme.kind})"
  | .symbol name => s!"Grammatical error: unexpected symbol {quoted name}"

end Precedence
