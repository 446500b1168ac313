import Precedence.Relations.EdgeSet

/-!
# Paths along edges

A symbol stands at an edge of another one if it is the first, or last, symbol of one of its
bodies. A path goes from symbol to symbol along one edge; a proper path never stays at a symbol.
An edge set should hold exactly the ends of the proper paths from its symbol.
-/

namespace Precedence.Grammar

/-- One symbol stands at an edge of a body of another. -/
def EdgeStep (grammar : Grammar) (edge : Edge) (symbol next : String) : Prop :=
  ∃ production ∈ grammar.productions,
    production.head = symbol ∧ production.edge? edge = some next

/-- A step along an edge to another symbol. -/
def ProperEdgeStep (grammar : Grammar) (edge : Edge) (symbol next : String) : Prop :=
  grammar.EdgeStep edge symbol next ∧ next ≠ symbol

/-- One or more steps along an edge. -/
abbrev EdgePath (grammar : Grammar) (edge : Edge) : String → String → Prop :=
  Relation.TransGen (grammar.EdgeStep edge)

/-- One or more steps along an edge, each to another symbol. -/
abbrev ProperEdgePath (grammar : Grammar) (edge : Edge) : String → String → Prop :=
  Relation.TransGen (grammar.ProperEdgeStep edge)

/-- A proper path is a path. -/
theorem ProperEdgePath.edgePath {grammar : Grammar} {edge : Edge} {symbol next : String}
    (path : grammar.ProperEdgePath edge symbol next) : grammar.EdgePath edge symbol next := by
  induction path with
  | single stepped => exact .single stepped.1
  | tail _ stepped ih => exact .tail ih stepped.1

end Precedence.Grammar
