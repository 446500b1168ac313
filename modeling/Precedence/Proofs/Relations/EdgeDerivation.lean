import Precedence.Proofs.Relations.Facts

/-!
# The relations by derivations

Expanding the symbol at an edge of a form, and then the one that has come to stand there, leads
along an edge path. The edge sets leave direct recursion out, but no reading is lost by it: all that
a non-terminal may lack in its own left set is itself, and where its left set is asked for it is the
neighbour of the symbol before it. A take-over may be lost, but none is invented, because proper
paths are paths.
-/

namespace Precedence

/-- Lists in brackets, with a production that begins with its own head. -/
def Ruleset.bracketed : Ruleset where
  name := none
  start := "S"
  endMarker := "$"
  empty := none
  rules := [⟨"S", ["[ L ]"]⟩, ⟨"L", ["L n", "n"]⟩]

/-- The symbol at an edge of a form. -/
def Edge.symbolOf? (edge : Edge) (form : List String) : Option String :=
  match edge with
  | .left => form.head?
  | .right => form.getLast?

namespace Grammar

/-- One production of the grammar expands the symbol at an edge of a form. -/
inductive ExpandsAt (grammar : Grammar) : Edge → List String → List String → Prop
  /-- The first symbol is expanded. -/
  | left (after : List String) {production : Production}
      (declared : production ∈ grammar.productions) :
      ExpandsAt grammar .left (production.head :: after) (production.body ++ after)
  /-- The last symbol is expanded. -/
  | right (before : List String) {production : Production}
      (declared : production ∈ grammar.productions) :
      ExpandsAt grammar .right (before ++ [production.head]) (before ++ production.body)

/-- One or more expansions at an edge lead from a symbol to a form with another symbol there. -/
def DerivesAt (grammar : Grammar) (edge : Edge) (symbol other : String) : Prop :=
  ∃ form, Relation.TransGen (grammar.ExpandsAt edge) [symbol] form ∧
    edge.symbolOf? form = some other

variable {grammar : Grammar} {edge : Edge}

/-- The symbol at either edge of a form of one symbol is that symbol. -/
theorem symbolOf?_singleton (edge : Edge) (symbol : String) :
    edge.symbolOf? [symbol] = some symbol := by
  cases edge <;> rfl

/-- Expanding the symbol at an edge puts a symbol there that stands at the edge of its body. -/
theorem ExpandsAt.edgeStep (wellFormed : grammar.WellFormed) {form next : List String}
    (expands : grammar.ExpandsAt edge form next) :
    ∃ symbol other, edge.symbolOf? form = some symbol ∧ edge.symbolOf? next = some other ∧
      grammar.EdgeStep edge symbol other := by
  cases expands with
  | @left after production declared =>
    obtain ⟨first, isFirst⟩ := wellFormed.exists_edge declared .left
    exact ⟨production.head, first, rfl, head?_body_append isFirst after,
      production, declared, rfl, isFirst⟩
  | @right before production declared =>
    obtain ⟨last, isLast⟩ := wellFormed.exists_edge declared .right
    exact ⟨production.head, last, List.getLast?_concat, getLast?_append_body isLast before,
      production, declared, rfl, isLast⟩

/-- What stands at the edge of a body can be brought to the edge of a form with its head there. -/
theorem EdgeStep.exists_expandsAt {symbol other : String} {form : List String}
    (stepped : grammar.EdgeStep edge symbol other) (atEdge : edge.symbolOf? form = some symbol) :
    ∃ next, grammar.ExpandsAt edge form next ∧ edge.symbolOf? next = some other := by
  obtain ⟨production, declared, rfl, isEdge⟩ := stepped
  cases edge with
  | left =>
    obtain ⟨after, rfl⟩ := List.head?_eq_some_iff.mp atEdge
    exact ⟨production.body ++ after, .left after declared, head?_body_append isEdge after⟩
  | right =>
    obtain ⟨before, rfl⟩ := List.getLast?_eq_some_iff.mp atEdge
    exact ⟨before ++ production.body, .right before declared, getLast?_append_body isEdge before⟩

/-- Derivations at an edge lead where the paths along it lead. -/
theorem derivesAt_iff_edgePath (wellFormed : grammar.WellFormed) {symbol other : String} :
    grammar.DerivesAt edge symbol other ↔ grammar.EdgePath edge symbol other := by
  constructor
  · rintro ⟨form, expanded, atEdge⟩
    induction expanded generalizing other with
    | single expands =>
      obtain ⟨first, last, isFirst, isLast, stepped⟩ := expands.edgeStep wellFormed
      obtain rfl := Option.some.inj ((symbolOf?_singleton edge symbol).symm.trans isFirst)
      obtain rfl := Option.some.inj (isLast.symm.trans atEdge)
      exact .single stepped
    | tail _ expands ih =>
      obtain ⟨middle, last, isMiddle, isLast, stepped⟩ := expands.edgeStep wellFormed
      obtain rfl := Option.some.inj (isLast.symm.trans atEdge)
      exact .tail (ih isMiddle) stepped
  · intro path
    induction path with
    | single stepped =>
      obtain ⟨next, expands, atEdge⟩ := stepped.exists_expandsAt (symbolOf?_singleton edge symbol)
      exact ⟨next, .single expands, atEdge⟩
    | tail _ stepped ih =>
      obtain ⟨form, expanded, atEdge⟩ := ih
      obtain ⟨next, expands, nextAtEdge⟩ := stepped.exists_expandsAt atEdge
      exact ⟨next, expanded.tail expands, nextAtEdge⟩

/-- What a symbol of a body can begin with is itself when it cannot be expanded, and otherwise what
it derives at the left edge. -/
theorem Begins.cases (wellFormed : grammar.WellFormed) {symbol first : String}
    (begins : grammar.Begins symbol first) (occurs : grammar.Occurs symbol) :
    ((grammar.isTerminal symbol = true ∨ grammar.isEmptySymbol symbol = true) ∧ first = symbol) ∨
      (grammar.isNonTerminal symbol = true ∧ grammar.DerivesAt .left symbol first) := by
  rw [Begins] at begins
  split at begins
  · rename_i nonTerminal
    exact Or.inr ⟨nonTerminal, (derivesAt_iff_edgePath wellFormed).mpr begins.edgePath⟩
  · rename_i unexpanded
    refine Or.inl ⟨?_, begins⟩
    rw [isTerminal, isEmptySymbol, decide_eq_true_eq, decide_eq_true_eq]
    exact wellFormed.mem_terminals_or_empty occurs (Bool.eq_false_iff.mpr unexpanded)

end Grammar

namespace Relations

variable {grammar : Grammar} {start endMarker : String}

/-- A symbol other than the end marker may be followed by its neighbours and by what these derive
at the left edge, by direct recursion or not. -/
theorem shifts_iff_derivesAt (wellFormed : grammar.WellFormed) {x y : String}
    (inner : x ≠ endMarker) :
    (ofGrammar grammar start endMarker).shifts x y = true ↔
      grammar.Adjacent x y ∨ ∃ b, grammar.Adjacent x b ∧ grammar.isNonTerminal b = true ∧
        grammar.DerivesAt .left b y := by
  rw [shifts_iff wellFormed]
  simp only [Grammar.derivesAt_iff_edgePath wellFormed]
  constructor
  · rintro (adjacent | ⟨b, adjacent, path⟩ | ⟨isEnd, _⟩)
    · exact Or.inl adjacent
    · exact Or.inr ⟨b, adjacent, path.edgePath.isNonTerminal wellFormed, path.edgePath⟩
    · exact absurd isEnd inner
  · rintro (adjacent | ⟨b, adjacent, _, path⟩)
    · exact Or.inl adjacent
    · -- A path that is not proper leads back to the neighbour itself.
      rcases path.proper_or_eq with proper | rfl
      · exact Or.inr (Or.inl ⟨b, adjacent, proper⟩)
      · exact Or.inl adjacent

/-- What takes over a symbol other than the end marker ends the left one of two neighbours, and the
right one can begin with that symbol. -/
theorem takes_derivesAt (wellFormed : grammar.WellFormed) {z w : String} (inner : w ≠ endMarker)
    (takes : (ofGrammar grammar start endMarker).holds z .takes w = true) :
    ∃ x y, grammar.Adjacent x y ∧ grammar.DerivesAt .right x z ∧
      (((grammar.isTerminal y = true ∨ grammar.isEmptySymbol y = true) ∧ w = y) ∨
        (grammar.isNonTerminal y = true ∧ grammar.DerivesAt .left y w)) := by
  rcases (holds_takes_iff wellFormed).mp takes with ⟨x, y, adjacent, path, begins⟩ | ⟨isEnd, _⟩
  · exact ⟨x, y, adjacent, (Grammar.derivesAt_iff_edgePath wellFormed).mpr path.edgePath,
      begins.cases wellFormed adjacent.occurs_right⟩
  · exact absurd isEnd inner

/-- What takes over the end marker ends the start symbol. -/
theorem takes_endMarker_derivesAt (accepted : grammar.Accepted start endMarker) {z : String}
    (takes : (ofGrammar grammar start endMarker).holds z .takes endMarker = true) :
    grammar.DerivesAt .right start z := by
  rcases (holds_takes_iff accepted.toWellFormed).mp takes with ⟨x, y, adjacent, _, begins⟩ | ends
  · exact absurd rfl (accepted.ne_endMarker_of_occurs (begins.occurs adjacent.occurs_right))
  · exact (Grammar.derivesAt_iff_edgePath accepted.toWellFormed).mpr ends.2.edgePath

/-- Leaving direct recursion out of the edge sets of a ruleset hides no reading and invents no
take-over. A symbol of the grammar may be followed exactly by its neighbours and what these derive
at the left edge. What takes over another symbol ends the left one of two neighbours whose right one
begins with that symbol, and what takes over the end marker ends the start symbol. The facts that
hold are listed, each once, and no other. -/
theorem recursion_hides_no_reading {ruleset : Ruleset} (made : ruleset.grammar = .ok grammar) :
    let relations := ofGrammar grammar ruleset.start ruleset.endMarker
    (∀ x ∈ grammar.symbols, ∀ y, relations.shifts x y = true ↔
      grammar.Adjacent x y ∨ ∃ b, grammar.Adjacent x b ∧ grammar.isNonTerminal b = true ∧
        grammar.DerivesAt .left b y) ∧
    (∀ z w, w ≠ ruleset.endMarker → relations.holds z .takes w = true →
      ∃ x y, grammar.Adjacent x y ∧ grammar.DerivesAt .right x z ∧
        (((grammar.isTerminal y = true ∨ grammar.isEmptySymbol y = true) ∧ w = y) ∨
          (grammar.isNonTerminal y = true ∧ grammar.DerivesAt .left y w))) ∧
    (∀ z, relations.holds z .takes ruleset.endMarker = true →
      grammar.DerivesAt .right ruleset.start z) ∧
    relations.facts.Nodup ∧
    ∀ fact, fact ∈ relations.facts ↔
      relations.holds fact.left fact.relation fact.right = true := by
  intro relations
  have accepted := (Grammar.accepted_of_ruleset made).1
  have indexed := indexed_ofGrammar grammar ruleset.start ruleset.endMarker
  refine ⟨fun x isSymbol y => ?_, fun z w inner => ?_, fun z => ?_, ?_, fun fact => ?_⟩
  · exact shifts_iff_derivesAt accepted.toWellFormed (accepted.ne_endMarker_of_mem_symbols isSymbol)
  · exact takes_derivesAt accepted.toWellFormed inner
  · exact takes_endMarker_derivesAt accepted
  · exact nodup_facts grammar ruleset.start ruleset.endMarker
  · exact (holds_iff_mem indexed).symm

/-- A list in brackets has a production that begins with its own head. What stands before a list may
be followed by one, although the left set of the list lacks it, and an item that takes over the
closing bracket ends a neighbour of it. -/
theorem recursion_hides_no_reading_bracketed :
    let grammar := Grammar.index Ruleset.bracketed.productions none
    let relations := ofGrammar grammar "S" "$"
    Ruleset.bracketed.grammar = .ok grammar ∧ "[" ∈ grammar.symbols ∧
      "L" ∉ relations.leftSet "L" ∧ grammar.DerivesAt .left "L" "L" ∧
      relations.shifts "[" "L" = true ∧ relations.holds "n" .takes "]" = true ∧
      ∃ x y, grammar.Adjacent x y ∧ grammar.DerivesAt .right x "n" ∧
        (((grammar.isTerminal y = true ∨ grammar.isEmptySymbol y = true) ∧ "]" = y) ∨
          (grammar.isNonTerminal y = true ∧ grammar.DerivesAt .left y "]")) := by
  intro grammar relations
  have made : Ruleset.bracketed.grammar = .ok grammar := rfl
  obtain ⟨reads, takesOver, _⟩ := recursion_hides_no_reading made
  have isSymbol : "[" ∈ grammar.symbols := by decide +kernel
  have takes : relations.holds "n" .takes "]" = true := by decide +kernel
  have adjacent : grammar.Adjacent "[" "L" :=
    ⟨⟨"S", ["[", "L", "]"]⟩, by decide +kernel, [], ["]"], rfl⟩
  have recursive : (⟨"L", ["L", "n"]⟩ : Production) ∈ grammar.productions := by decide +kernel
  have derives : grammar.DerivesAt .left "L" "L" := ⟨["L", "n"], .single (.left [] recursive), rfl⟩
  exact ⟨made, isSymbol, by decide +kernel, derives,
    (reads "[" isSymbol "L").mpr (Or.inr ⟨"L", adjacent, by decide +kernel, derives⟩),
    takes, takesOver "n" "]" (by decide) takes⟩

end Relations

end Precedence
