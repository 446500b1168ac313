import Precedence.Distinct
import Precedence.Grammar.Groups

/-!
# Grammars

A grammar is a list of productions with the look-ups that parsing needs. A symbol that heads a
production is a non-terminal; every other symbol of a body is a terminal, except the empty symbol,
which a grammar may declare and which stands alone in the body of a production that derives
nothing.
-/

namespace Precedence

/-- Why a grammar cannot be read or used. -/
inductive GrammarError
  /-- There is no production. -/
  | emptyRuleSet
  /-- A production has no symbol in its body. -/
  | emptyBody (head : String)
  /-- The empty symbol stands beside other symbols in a body. -/
  | misplacedEmptySymbol (head : String)
  /-- The start symbol heads no production. -/
  | undefinedStart (start : String)
  /-- The end marker is a symbol of the grammar. -/
  | reservedSymbol (symbol : String)
  /-- The text of a grammar does not describe one. -/
  | malformed
  /-- The file of a grammar cannot be read. -/
  | unreadable (path reason : String)
  deriving DecidableEq

/-- The message of a grammar error. -/
def GrammarError.message : GrammarError → String
  | .emptyRuleSet => "Grammar has no productions"
  | .emptyBody head => s!"Production for {head} has an empty body"
  | .misplacedEmptySymbol head =>
    s!"Production for {head} mixes the empty symbol with other symbols"
  | .undefinedStart start => s!"Start symbol {start} heads no production"
  | .reservedSymbol symbol => s!"End marker {symbol} is used as a grammar symbol"
  | .malformed => "Grammar configuration error: ..."
  | .unreadable path reason => s!"IO error: {path}: {reason}"

/-- Productions with their look-ups. -/
structure Grammar where
  /-- The productions in declaration order. -/
  productions : List Production
  /-- The productions by head. -/
  byHead : Groups
  /-- The productions by the key of their body. -/
  byBody : Groups
  /-- The heads, in the order of first occurrence. -/
  nonTerminals : List String
  /-- The symbols of bodies that are neither heads nor the empty symbol, in the order of first
  occurrence. -/
  terminals : List String
  /-- The symbol that stands for an empty body. -/
  emptySymbol : Option String

namespace Grammar

/-- The first fault of a list of productions: a body without symbols, or the empty symbol beside
other symbols. -/
def checkProductions (emptySymbol : Option String) : List Production → Except GrammarError Unit
  | [] => .ok ()
  | production :: productions =>
    if production.body.isEmpty then .error (.emptyBody production.head)
    else if 1 < production.body.length ∧ ∃ empty ∈ emptySymbol, empty ∈ production.body then
      .error (.misplacedEmptySymbol production.head)
    else checkProductions emptySymbol productions

/-- The look-ups of a list of productions. -/
def index (productions : List Production) (emptySymbol : Option String) : Grammar :=
  let byHead := Groups.ofProductions Production.head productions
  { productions
    byHead
    byBody := Groups.ofProductions Production.key productions
    nonTerminals := distinct (productions.map Production.head)
    terminals := distinct <| (productions.flatMap Production.body).filter fun symbol =>
      !byHead.contains symbol && emptySymbol != some symbol
    emptySymbol }

/-- The grammar of productions in declaration order. -/
def ofProductions (productions : List Production) (emptySymbol : Option String) :
    Except GrammarError Grammar :=
  if productions.isEmpty then .error .emptyRuleSet
  else (checkProductions emptySymbol productions).map fun () => index productions emptySymbol

/-- The productions with a head, in declaration order. -/
def productionsWithHead (grammar : Grammar) (head : String) : List Production :=
  grammar.byHead.find head

/-- The productions whose body has a key, in declaration order. -/
def productionsWithBody (grammar : Grammar) (key : String) : List Production :=
  grammar.byBody.find key

/-- Whether a symbol heads a production. -/
def isNonTerminal (grammar : Grammar) (symbol : String) : Bool :=
  grammar.byHead.contains symbol

/-- Whether a symbol is a terminal. -/
def isTerminal (grammar : Grammar) (symbol : String) : Bool :=
  symbol ∈ grammar.terminals

/-- Whether a symbol is the empty symbol. -/
def isEmptySymbol (grammar : Grammar) (symbol : String) : Bool :=
  grammar.emptySymbol = some symbol

/-- Every symbol of the grammar: the non-terminals, the terminals and the empty symbol. -/
def symbols (grammar : Grammar) : List String :=
  grammar.nonTerminals ++ grammar.terminals ++ grammar.emptySymbol.toList

/-- The number of symbols of the longest body. -/
def longestBody (grammar : Grammar) : Nat :=
  (grammar.productions.map (·.body.length)).max?.getD 0

end Grammar

end Precedence
