import Precedence.ActionTable
import Precedence.Grammar.Ruleset
import Precedence.Lexeme.Basic

/-!
# Weak precedence parsers

A weak precedence parser keeps a stack of elements and looks at the element that comes next. The
action table decides between reading and reducing. Where the table has nothing for the next
element, a grammar with an empty symbol is asked what it would do if the empty symbol came next:
reading it puts it on the stack without using input, and reducing reduces. The number of empty
symbols put on the stack between two elements read is limited.

A reduction takes the longest body on top of the stack and replaces it by its head. Every decision
looks at elements only by their kind.
-/

namespace Precedence

open Text (joinWords)

/-- A grammar with the tables that parsing reads. -/
structure Parser where
  /-- The grammar. -/
  grammar : Grammar
  /-- The symbol that derives the whole input. -/
  start : String
  /-- The symbol below the stack and after the input. -/
  endMarker : String
  /-- The precedence relations of the grammar. -/
  relations : Relations
  /-- The action table of the grammar. -/
  table : ActionTable
  /-- The number of symbols of the longest body. -/
  longestBody : Nat
  /-- How many empty symbols may be put on the stack between two elements read, if limited. -/
  insertionLimit : Option Nat
  /-- The relations are those of the grammar. -/
  relations_eq : relations = Relations.ofGrammar grammar start endMarker
  /-- The table is that of the grammar. -/
  table_eq : table = ActionTable.ofRelations grammar relations endMarker
  /-- The longest body is that of the grammar. -/
  longestBody_eq : longestBody = grammar.longestBody

/-- What a parser does next. -/
inductive Move
  /-- Put the next element on the stack. -/
  | read
  /-- Replace the longest body on top of the stack by its head. -/
  | reduce
  /-- Put the empty symbol on the stack. -/
  | insert (empty : String)
  /-- Refuse the next element. -/
  | reject
  deriving DecidableEq

namespace Parser

/-- The parser of a grammar. As many empty symbols as there are productions may be put on the
stack between two elements read. -/
def ofGrammar (grammar : Grammar) (start endMarker : String) : Parser :=
  let relations := Relations.ofGrammar grammar start endMarker
  { grammar
    start
    endMarker
    relations
    table := ActionTable.ofRelations grammar relations endMarker
    longestBody := grammar.longestBody
    insertionLimit := some grammar.productions.length
    relations_eq := rfl
    table_eq := rfl
    longestBody_eq := rfl }

/-- The parser of a ruleset whose grammar passes every check. -/
def ofRuleset (ruleset : Ruleset) : Except GrammarError Parser :=
  ruleset.grammar.map fun grammar => ofGrammar grammar ruleset.start ruleset.endMarker

/-- The same parser with no limit on empty symbols. -/
def withoutLimit (parser : Parser) : Parser :=
  { parser with insertionLimit := none }

/-- The kind of the element on top of a stack; below the last one is the end marker. -/
def topKind (parser : Parser) : List Element → String
  | [] => parser.endMarker
  | top :: _ => top.kind

/-- Whether the stack is the start symbol alone and the end marker comes next. -/
def accepts (parser : Parser) (stack : List Element) (lookahead : Element) : Bool :=
  match stack with
  | [element] => element.kind == parser.start && lookahead.kind == parser.endMarker
  | _ => false

/-- The production to reduce a body by, given its key and the kind of the element beneath it: the
first one declared, except that the empty symbol is reduced to the first head that may be read
after the element beneath, if there is one. -/
def select (parser : Parser) (key beneath : String) : Option Production :=
  match parser.grammar.productionsWithBody key with
  | [] => none
  | first :: others =>
    if parser.grammar.isEmptySymbol key then
      ((first :: others).find? fun production =>
        parser.relations.shifts beneath production.head).or (some first)
    else some first

/-- The kinds of the elements on top of a stack, from the deepest to the top, written as the key
of a body. -/
def topKey (stack : List Element) (length : Nat) : String :=
  joinWords ((stack.take length).reverse.map Element.kind)

/-- The longest body on top of the stack with at most so many symbols: the production to reduce it
by, and the stack beneath it. -/
def findHandle (parser : Parser) (stack : List Element) : Nat → Option (Production × List Element)
  | 0 => none
  | length + 1 =>
    let beneath := stack.drop (length + 1)
    match parser.select (topKey stack (length + 1)) (parser.topKind beneath) with
    | some production => some (production, beneath)
    | none => parser.findHandle stack length

/-- The move for a kind on top of the stack and the kind that comes next. -/
def move (parser : Parser) (top next : String) : Move :=
  match parser.table.action top next with
  | .shift => .read
  | .reduce => .reduce
  | .undefined =>
    match parser.grammar.emptySymbol with
    | none => .reject
    | some empty =>
      match parser.table.action top empty with
      | .shift => .insert empty
      | .reduce => .reduce
      | .undefined => .reject

end Parser

end Precedence
