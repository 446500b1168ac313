import Precedence.Parser.Run
import Precedence.SyntaxTree.Attachment
import Precedence.SyntaxTree.Derivation

/-!
# Analysis of a source

An analysis reads a source, parses it and builds its tree with the lexemes attached. Every
analysis of a source begins with an empty lexicon.
-/

namespace Precedence

/-- Why an analysis failed. -/
inductive AnalysisError
  /-- The input cannot be parsed. -/
  | parse (error : ParseError)
  /-- The derivation gives no tree. -/
  | tree (error : TreeError)
  deriving DecidableEq

/-- The message of an analysis error. -/
def AnalysisError.message : AnalysisError → String
  | .parse error => error.message
  | .tree error => error.message

/-- What an analysis gives. -/
structure Analysis where
  /-- The lexemes of the source, in order. -/
  lexemes : List Lexeme
  /-- The rightmost derivation. -/
  derivation : Derivation
  /-- The tree with the lexemes attached. -/
  tree : SyntaxTree

namespace Parser

/-- Builds the tree of a derivation and attaches lexemes to it. -/
def finish (parser : Parser) (lexemes : List Lexeme) (derivation : Derivation) :
    Except AnalysisError Analysis :=
  match SyntaxTree.ofDerivation parser.grammar derivation with
  | .error error => .error (.tree error)
  | .ok tree => .ok { lexemes, derivation, tree := (tree.attachLexemes lexemes).1 }

/-- Analyzes a source. It has at most one lexeme for each character. -/
def analyze (parser : Parser) (source : String) : Except AnalysisError Analysis :=
  match parser.parse source.length (SourceSupply.ofSource source .empty parser.endMarker) with
  | (.error error, _) => .error (.parse error)
  | (.ok derivation, supply) => parser.finish supply.consumed.toList derivation

/-- Analyzes an input of at most so many elements, and attaches lexemes that are given apart. -/
def analyzeInput {σ : Type} [Supply σ] (parser : Parser) (size : Nat) (input : σ)
    (lexemes : List Lexeme) : Except AnalysisError Analysis :=
  match parser.parse size input with
  | (.error error, _) => .error (.parse error)
  | (.ok derivation, _) => parser.finish lexemes derivation

/-- Analyzes symbols of the grammar. -/
def analyzeSymbols (parser : Parser) (symbols : List String) : Except AnalysisError Analysis :=
  parser.analyzeInput symbols.length (SymbolSupply.mk symbols parser.endMarker) []

end Parser

end Precedence
