import Precedence.Parser.Run
import Precedence.SyntaxTree.Basic
import Precedence.Text.Json

/-!
# Data forms

The JSON values of lexemes, productions, relations, tables and trees. The order of the fields is
part of the form. A tree leaves out its children when there are none and its lexeme when it has
none.
-/

namespace Precedence

open Text (Json)

/-- The data form of a list of texts. -/
def textData (texts : List String) : Json :=
  .array (texts.map .text)

/-- The data form of a token. -/
def Token.data (token : Token) : Json :=
  .object [("class", .text token.tokenClass.name), ("subclass", .text token.subclass),
    ("kind", .text token.kind)]

/-- The data form of a lexeme. -/
def Lexeme.data (lexeme : Lexeme) : Json :=
  .object [("text", .text lexeme.text), ("line", .number lexeme.line),
    ("column", .number lexeme.column), ("token", lexeme.token.data)]

/-- The data form of a production. -/
def Production.data (production : Production) : Json :=
  .object [("head", .text production.head), ("body", textData production.body)]

/-- The data form of a fact. -/
def Fact.data (fact : Fact) : Json :=
  .object [("left", .text fact.left), ("relation", .text fact.relation.name),
    ("right", .text fact.right)]

/-- The data form of a table. -/
def ActionTable.data (table : ActionTable) : Json :=
  .object [("rows", textData table.rows), ("columns", textData table.columns),
    ("cells", .array (table.cells.map fun actions => textData (actions.map Action.name)))]

namespace SyntaxTree

mutual

/-- The data form of a tree. -/
def data : SyntaxTree → Json
  | .node symbol lexeme children =>
    .object <| ("symbol", .text symbol) ::
      (if children.isEmpty then [] else [("children", .array (dataAll children))]) ++
      (lexeme.toList.map fun found => ("lexeme", found.data))

/-- The data forms of trees. -/
def dataAll : List SyntaxTree → List Json
  | [] => []
  | tree :: trees => data tree :: dataAll trees

end

end SyntaxTree

end Precedence
