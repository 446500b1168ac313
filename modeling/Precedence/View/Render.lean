import Precedence.Grammar.Bundled
import Precedence.Render.Data
import Precedence.Render.Grid
import Precedence.Render.Listing
import Precedence.Render.Outline
import Precedence.View.Basic

/-!
# What views show

A view shows one stage of the analysis of a source in its format. The table and the relations are
those of the grammar, so showing them reads no source.
-/

namespace Precedence.View

open Text (Json)

/-- What a view shows of a source. -/
def render (view : View) (parser : Parser) (source : String) : Except RenderError String :=
  match view.stage with
  | .table =>
    match view.format with
    | .simple => .ok parser.table.grid
    | _ => .ok parser.table.data.indented
  | .relations =>
    match view.format with
    | .simple => .ok parser.relations.listing
    | _ => .ok (Json.array (parser.relations.facts.map Fact.data)).indented
  | .tokens => do
    let lexemes ← (Lexicon.empty.readSource source).1.mapError fun error =>
      .analysis (.parse (.lexical error))
    match view.format with
    | .json => return (Json.array (lexemes.map Lexeme.data)).indented
    | _ => return lexemeListing lexemes
  | .derivation => do
    let analysis ← (parser.analyze source).mapError .analysis
    match view.format with
    | .json => return (Json.array (analysis.derivation.map Production.data)).indented
    | _ => return derivationListing analysis.derivation
  | .tree => do
    let analysis ← (parser.analyze source).mapError .analysis
    match view.format with
    | .simple =>
      return " ".intercalate (analysis.tree.frontier parser.grammar) ++ "\n"
    | .json => return analysis.tree.data.indented
    | .treeviz => return analysis.tree.outline

end Precedence.View
