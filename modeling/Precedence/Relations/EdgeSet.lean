import Precedence.Grammar.Basic

/-!
# Symbols at the edges of derivations

The left set of a non-terminal holds the symbols that what it derives can begin with, the right
set those that it can end with. Both are found by going from a head to the first, or last, symbol
of each of its bodies, depth first and in declaration order. A body whose edge symbol is the very
head that is being expanded adds nothing, and no non-terminal is expanded twice.
-/

namespace Precedence

/-- One of the two ends of a body. -/
inductive Edge
  /-- Where the body begins. -/
  | left
  /-- Where the body ends. -/
  | right
  deriving DecidableEq

/-- The symbol at an edge of the body of a production. -/
def Production.edge? (edge : Edge) (production : Production) : Option String :=
  match edge with
  | .left => production.first?
  | .right => production.last?

/-- What a search for edge symbols has seen. -/
structure EdgeSearch where
  /-- The edge symbols found, in order. -/
  found : List String
  /-- The non-terminals whose expansion has begun. -/
  visited : List String
  deriving DecidableEq

namespace Grammar

/-- Follows one production of the symbol that is being expanded; `expandNext` expands a
non-terminal met for the first time. -/
def followEdge (grammar : Grammar) (edge : Edge) (symbol : String)
    (expandNext : String → EdgeSearch → EdgeSearch) (search : EdgeSearch)
    (production : Production) : EdgeSearch :=
  match production.edge? edge with
  | none => search
  | some next =>
    if next = symbol then search
    else
      let search := { search with found := addMissing search.found next }
      if grammar.isNonTerminal next ∧ next ∉ search.visited then
        expandNext next { search with visited := next :: search.visited }
      else search

/-- Expands a symbol by following its productions, at most as deep as given. Every level below
the first expands a non-terminal that no level above it does, so a depth of the number of
non-terminals is never used up. -/
def expandEdge (grammar : Grammar) (edge : Edge) : Nat → String → EdgeSearch → EdgeSearch
  | 0, _, search => search
  | depth + 1, symbol, search =>
    (grammar.productionsWithHead symbol).foldl
      (grammar.followEdge edge symbol (grammar.expandEdge edge depth)) search

/-- The symbols that what a symbol derives can have at an edge; none for a terminal. -/
def edgeSet (grammar : Grammar) (edge : Edge) (symbol : String) : List String :=
  (grammar.expandEdge edge grammar.nonTerminals.length symbol ⟨[], [symbol]⟩).found

end Grammar

end Precedence
