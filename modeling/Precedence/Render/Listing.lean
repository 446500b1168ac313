import Precedence.Parser.Run

/-!
# Listings

A listing has one line for each item, in order: the lexemes of a source, the productions of a
derivation, or the facts of a relation.
-/

namespace Precedence

/-- Texts written one after another, each ended by a line feed. -/
def listing (texts : List String) : String :=
  String.join (texts.map (· ++ "\n"))

/-- One line for each lexeme. -/
def lexemeListing (lexemes : List Lexeme) : String :=
  listing (lexemes.map Lexeme.display)

/-- One line for each production. -/
def derivationListing (derivation : Derivation) : String :=
  listing (derivation.map Production.display)

/-- One line for each fact. -/
def Relations.listing (relations : Relations) : String :=
  Precedence.listing (relations.facts.map Fact.display)

end Precedence
