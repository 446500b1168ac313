/-!
# Tokens

A token classifies a fragment of source text: every identifier has the same token, and so has
every `+`. A token is its class and subclass, and its kind is the terminal of the grammar that it
stands for.

A reader of sources enters each token once in a lexicon and hands out the entry. What is handed
out says which entry it is, so it can be told whether two lexemes share one.
-/

namespace Precedence

/-- The broad category of a token. -/
inductive TokenClass
  /-- A word of the language that cannot name anything. -/
  | reserved
  /-- A name. -/
  | identifier
  /-- A number or a text. -/
  | literal
  /-- An arithmetic or comparison sign. -/
  | operator
  /-- A bracket or a separator. -/
  | special
  /-- No category at all; only the lexeme of a lexical error has it. -/
  | uncategorized
  deriving DecidableEq

/-- The written name of a class. -/
def TokenClass.name : TokenClass → String
  | .reserved => "reserved"
  | .identifier => "identifier"
  | .literal => "literal"
  | .operator => "operator"
  | .special => "special"
  | .uncategorized => "uncategorized"

/-- The classification of a fragment of source text. -/
structure Token where
  /-- The broad category. -/
  tokenClass : TokenClass
  /-- What distinguishes the tokens of one class. -/
  subclass : String
  deriving DecidableEq

namespace Token

/-- The token of a fragment that matches no pattern. -/
def uncategorized : Token := ⟨.uncategorized, ""⟩

/-- The terminal of the grammar that a token stands for. -/
def kind (token : Token) : String :=
  match token.tokenClass with
  | .identifier => "id"
  | .literal => if token.subclass = "string" then "text" else "num"
  | .uncategorized => "uncategorized"
  | .reserved | .operator | .special => token.subclass

/-- Whether a token has no category. -/
def isUncategorized (token : Token) : Bool :=
  token.tokenClass = .uncategorized

/-- The class and the kind between angle brackets. -/
def display (token : Token) : String :=
  s!"<{token.tokenClass.name}:{token.kind}>"

end Token

/-- A token as it is handed out to be shared. Two that are handed out from one lexicon are the same
one if they have the same entry. -/
structure SharedToken where
  /-- The classification. -/
  token : Token
  /-- The place in the lexicon where the token stands; none for a token that is in no lexicon. -/
  entry : Option Nat
  deriving DecidableEq

/-- A token that is in no lexicon. -/
instance : Coe Token SharedToken := ⟨fun token => ⟨token, none⟩⟩

end Precedence
