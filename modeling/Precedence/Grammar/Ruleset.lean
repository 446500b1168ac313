import Precedence.Grammar.Basic

/-!
# Rulesets

A ruleset is a grammar as an author writes it: rules with their alternatives as texts, the start
symbol, the end marker and, if wanted, an empty symbol and a name. Its grammar is checked in this
order: the productions, that the start symbol heads one of them, and that the end marker is no
symbol of the grammar.
-/

namespace Precedence

/-- All alternatives of one head. -/
structure Rule where
  /-- The symbol that the alternatives expand. -/
  head : String
  /-- The alternatives, each a text of symbols separated by blanks. -/
  bodies : List String
  deriving DecidableEq

/-- The productions of a rule, in order. -/
def Rule.productions (rule : Rule) : List Production :=
  rule.bodies.map (Production.ofText rule.head)

/-- A grammar as an author writes it. -/
structure Ruleset where
  /-- The name of the grammar. -/
  name : Option String
  /-- The symbol that derives the whole input. -/
  start : String
  /-- The symbol that marks the end of the input. -/
  endMarker : String
  /-- The symbol that stands for an empty body. -/
  empty : Option String
  /-- The rules in declaration order. -/
  rules : List Rule
  deriving DecidableEq

namespace Ruleset

/-- The end marker of a ruleset that names none. -/
def defaultEndMarker : String := "$"

/-- The productions in declaration order: rules from top to bottom, alternatives from left to
right. -/
def productions (ruleset : Ruleset) : List Production :=
  ruleset.rules.flatMap Rule.productions

/-- The grammar of a ruleset that passes every check. -/
def grammar (ruleset : Ruleset) : Except GrammarError Grammar :=
  match Grammar.ofProductions ruleset.productions ruleset.empty with
  | .error error => .error error
  | .ok grammar =>
    if !grammar.isNonTerminal ruleset.start then .error (.undefinedStart ruleset.start)
    else if ruleset.endMarker ∈ grammar.symbols then .error (.reservedSymbol ruleset.endMarker)
    else .ok grammar

end Ruleset

end Precedence
