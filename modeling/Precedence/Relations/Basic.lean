import Precedence.Relations.EdgeSet
import Precedence.Relations.Fact

/-!
# Precedence relations

Two symbols next to each other in a body are equal. A symbol yields to what the non-terminal after
it can begin with. What a non-terminal can end with takes over the symbol after it, or over
what that symbol can begin with when it is a non-terminal too. The end marker stands on both
sides of the start symbol: it yields to what the start symbol can begin with, and what the start
symbol can end with takes over it. A fact that is found again is entered once.
-/

namespace Precedence

/-- The relations between the symbols of a grammar. -/
structure Relations extends FactTable where
  /-- The left set of each non-terminal. -/
  leftSets : List (String × List String)
  /-- The right set of each non-terminal. -/
  rightSets : List (String × List String)
  deriving DecidableEq

namespace Relations

/-- The symbols that what a symbol derives can begin with; none for a terminal. -/
def leftSet (relations : Relations) (symbol : String) : List String :=
  (relations.leftSets.lookup symbol).getD []

/-- The symbols that what a symbol derives can end with; none for a terminal. -/
def rightSet (relations : Relations) (symbol : String) : List String :=
  (relations.rightSets.lookup symbol).getD []

/-- The facts about two neighbours in a body. -/
def factsOfPair (grammar : Grammar) (leftSet rightSet : String → List String) (x y : String) :
    List Fact :=
  let begins := if grammar.isNonTerminal y then (leftSet y).map (⟨x, .yields, ·⟩) else []
  let followers := if grammar.isNonTerminal y then leftSet y else [y]
  let ends :=
    if grammar.isNonTerminal x then
      (rightSet x).flatMap fun z => followers.map (⟨z, .takes, ·⟩)
    else []
  ⟨x, .equal, y⟩ :: begins ++ ends

/-- The facts about the end marker on both sides of the start symbol. -/
def factsOfEnds (leftSet rightSet : String → List String) (start endMarker : String) : List Fact :=
  (leftSet start).map (⟨endMarker, .yields, ·⟩) ++ (rightSet start).map (⟨·, .takes, endMarker⟩)

/-- The facts of a grammar with a start symbol and an end marker in the order found: those about
the neighbours in each body, then those about the ends. A fact may be found more than once. -/
def factsFound (grammar : Grammar) (leftSet rightSet : String → List String)
    (start endMarker : String) : List Fact :=
  let neighbours := grammar.productions.flatMap fun production =>
    production.body.zip production.body.tail
  neighbours.flatMap (fun pair => factsOfPair grammar leftSet rightSet pair.1 pair.2) ++
    factsOfEnds leftSet rightSet start endMarker

/-- The relations of a grammar with a start symbol and an end marker. -/
def ofGrammar (grammar : Grammar) (start endMarker : String) : Relations :=
  let leftSets := grammar.nonTerminals.map fun head => (head, grammar.edgeSet .left head)
  let rightSets := grammar.nonTerminals.map fun head => (head, grammar.edgeSet .right head)
  let leftSet (symbol : String) := (leftSets.lookup symbol).getD []
  let rightSet (symbol : String) := (rightSets.lookup symbol).getD []
  { FactTable.ofFacts (factsFound grammar leftSet rightSet start endMarker) with
    leftSets
    rightSets }

/-- Whether a relation holds between two symbols. -/
def holds (relations : Relations) (left : String) (relation : Relation) (right : String) : Bool :=
  relations.contains ⟨left, relation, right⟩

/-- Whether the right symbol may be read after the left one: the left one yields or is equal. -/
def shifts (relations : Relations) (left right : String) : Bool :=
  relations.holds left .yields right || relations.holds left .equal right

/-- The pairs for which the left symbol takes over although the right one may be read after it, in
the order of the facts. -/
def conflicts (relations : Relations) : List (String × String) :=
  relations.facts.filterMap fun fact =>
    if fact.relation = .takes ∧ relations.shifts fact.left fact.right then
      some (fact.left, fact.right)
    else none

end Relations

end Precedence
