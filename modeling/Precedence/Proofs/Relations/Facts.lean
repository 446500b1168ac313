import Precedence.Proofs.Relations.EdgeSet
import Precedence.Relations.Basic

/-!
# What the precedence relations say

Each relation holds exactly between the symbols that its definition by edge paths names. The right
symbol of a shift and the left symbol of a take-over stand in a body, and the left symbol of a
shift stands in a body or is the end marker.
-/

namespace Precedence

namespace Grammar

/-- Two symbols are neighbours in a body. -/
def Adjacent (grammar : Grammar) (x y : String) : Prop :=
  ∃ production ∈ grammar.productions, ∃ before after, production.body = before ++ x :: y :: after

/-- What a symbol derives can begin with another one: a non-terminal with the ends of its proper
left paths, any other symbol with itself. -/
def Begins (grammar : Grammar) (symbol first : String) : Prop :=
  if grammar.isNonTerminal symbol then grammar.ProperEdgePath .left symbol first
  else first = symbol

variable {grammar : Grammar} {edge : Edge}

/-- Neighbours in a body stand in it. -/
theorem Adjacent.occurs_left {x y : String} (adjacent : grammar.Adjacent x y) :
    grammar.Occurs x := by
  obtain ⟨production, declared, before, after, isBody⟩ := adjacent
  exact ⟨production, declared, by simp [isBody]⟩

/-- Neighbours in a body stand in it. -/
theorem Adjacent.occurs_right {x y : String} (adjacent : grammar.Adjacent x y) :
    grammar.Occurs y := by
  obtain ⟨production, declared, before, after, isBody⟩ := adjacent
  exact ⟨production, declared, by simp [isBody]⟩

/-- The symbol at an edge of a body stands in it. -/
theorem mem_body_of_edge {production : Production} {next : String}
    (isEdge : production.edge? edge = some next) : next ∈ production.body := by
  cases edge with
  | left => exact List.mem_of_mem_head? isEdge
  | right => exact List.mem_of_mem_getLast? isEdge

/-- The body of a production has a symbol at either edge. -/
theorem WellFormed.exists_edge (wellFormed : grammar.WellFormed) {production : Production}
    (declared : production ∈ grammar.productions) (edge : Edge) :
    ∃ symbol, production.edge? edge = some symbol := by
  have nonempty := wellFormed.body_ne_nil production declared
  cases edge with
  | left => exact ⟨_, List.head?_eq_some_head nonempty⟩
  | right => exact ⟨_, List.getLast?_eq_some_getLast nonempty⟩

/-- A form that starts with a body starts with its first symbol. -/
theorem head?_body_append {production : Production} {first : String}
    (isFirst : production.edge? .left = some first) (after : List String) :
    (production.body ++ after).head? = some first := by
  rw [List.head?_append, show production.body.head? = some first from isFirst]
  rfl

/-- A form that ends with a body ends with its last symbol. -/
theorem getLast?_append_body {production : Production} {last : String}
    (isLast : production.edge? .right = some last) (before : List String) :
    (before ++ production.body).getLast? = some last := by
  rw [List.getLast?_append, show production.body.getLast? = some last from isLast]
  rfl

/-- A path along an edge ends at a symbol that stands in a body. -/
theorem EdgePath.occurs {symbol next : String} (path : grammar.EdgePath edge symbol next) :
    grammar.Occurs next := by
  cases path with
  | single stepped =>
    obtain ⟨production, declared, _, isEdge⟩ := stepped
    exact ⟨production, declared, mem_body_of_edge isEdge⟩
  | tail _ stepped =>
    obtain ⟨production, declared, _, isEdge⟩ := stepped
    exact ⟨production, declared, mem_body_of_edge isEdge⟩

/-- A path along an edge starts at a non-terminal. -/
theorem EdgePath.isNonTerminal (wellFormed : grammar.WellFormed) {symbol next : String}
    (path : grammar.EdgePath edge symbol next) : grammar.isNonTerminal symbol = true := by
  induction path with
  | single stepped =>
    obtain ⟨production, declared, headed, _⟩ := stepped
    exact wellFormed.isNonTerminal_iff.mpr ⟨production, declared, headed⟩
  | tail _ _ ih => exact ih

/-- A path along an edge is proper, or ends where it starts. -/
theorem EdgePath.proper_or_eq {symbol next : String} (path : grammar.EdgePath edge symbol next) :
    grammar.ProperEdgePath edge symbol next ∨ next = symbol := by
  induction path with
  | @single next stepped =>
    by_cases direct : next = symbol
    · exact Or.inr direct
    · exact Or.inl (.single ⟨stepped, direct⟩)
  | @tail middle next _ stepped ih =>
    by_cases direct : next = middle
    · exact direct ▸ ih
    · rcases ih with proper | same
      · exact Or.inl (.tail proper ⟨stepped, direct⟩)
      · exact Or.inl (.single (same ▸ ⟨stepped, direct⟩))

/-- A path along an edge that may be empty stays at its symbol or is proper. -/
theorem eq_or_properEdgePath {x z : String}
    (path : Relation.ReflTransGen (grammar.EdgeStep edge) x z) :
    z = x ∨ grammar.ProperEdgePath edge x z := by
  rcases Relation.reflTransGen_iff_eq_or_transGen.mp path with same | path
  · exact Or.inl same
  · exact (EdgePath.proper_or_eq path).symm

/-- A path with one more step is proper, or the step is direct recursion of the symbol that the
path starts from. -/
theorem properEdgePath_or_recursive {x symbol last : String}
    (path : Relation.ReflTransGen (grammar.EdgeStep edge) x symbol)
    (stepped : grammar.EdgeStep edge symbol last) :
    grammar.ProperEdgePath edge x last ∨ (last = symbol ∧ x = symbol) := by
  by_cases recursive : last = symbol
  · rcases eq_or_properEdgePath path with same | proper
    · exact Or.inr ⟨recursive, same.symm⟩
    · exact Or.inl (recursive ▸ proper)
  · have proper : grammar.ProperEdgeStep edge symbol last := ⟨stepped, recursive⟩
    rcases eq_or_properEdgePath path with rfl | path
    · exact Or.inl (.single proper)
    · exact Or.inl (path.tail proper)

/-- A symbol begins with whatever a left path leads to and cannot be expanded. -/
theorem begins_of_path (wellFormed : grammar.WellFormed) {y w : String}
    (path : Relation.ReflTransGen (grammar.EdgeStep .left) y w)
    (unexpanded : grammar.isNonTerminal w = false) : grammar.Begins y w := by
  rw [Begins]
  rcases eq_or_properEdgePath path with rfl | path
  · rw [if_neg (by simp [unexpanded])]
  · rw [if_pos (path.edgePath.isNonTerminal wellFormed)]
    exact path

/-- What a symbol can begin with stands in a body if the symbol does. -/
theorem Begins.occurs {symbol first : String} (begins : grammar.Begins symbol first)
    (occurs : grammar.Occurs symbol) : grammar.Occurs first := by
  rw [Begins] at begins
  split at begins
  · exact begins.edgePath.occurs
  · exact begins ▸ occurs

end Grammar

namespace Relations

variable {grammar : Grammar} {start endMarker : String}

/-- The sets of the non-terminals are the edge sets, which hold the ends of the proper paths. -/
theorem mem_lookup_edgeSets (wellFormed : grammar.WellFormed) (edge : Edge)
    {symbol next : String} :
    next ∈ ((grammar.nonTerminals.map fun head => (head, grammar.edgeSet edge head)).lookup
      symbol).getD [] ↔ grammar.ProperEdgePath edge symbol next := by
  by_cases listed : symbol ∈ grammar.nonTerminals
  · rw [List.lookup_graph _ listed, Option.getD_some]
    exact Grammar.mem_edgeSet_iff wellFormed (wellFormed.mem_nonTerminals_iff.mp listed)
  · have missing : (grammar.nonTerminals.map fun head =>
        (head, grammar.edgeSet edge head)).lookup symbol = none := by
      rw [List.lookup_eq_none_iff]
      intro entry held
      obtain ⟨head, isHead, rfl⟩ := List.mem_map.mp held
      simpa using fun same : symbol = head => listed (same ▸ isHead)
    rw [missing]
    refine ⟨fun held => absurd held List.not_mem_nil, fun path => ?_⟩
    exact absurd (wellFormed.mem_nonTerminals_iff.mpr (path.edgePath.isNonTerminal wellFormed))
      listed

/-- The left set of a symbol holds the ends of its proper left paths. -/
theorem mem_leftSet_iff (wellFormed : grammar.WellFormed) {symbol next : String} :
    next ∈ (ofGrammar grammar start endMarker).leftSet symbol ↔
      grammar.ProperEdgePath .left symbol next :=
  mem_lookup_edgeSets wellFormed .left

/-- The right set of a symbol holds the ends of its proper right paths. -/
theorem mem_rightSet_iff (wellFormed : grammar.WellFormed) {symbol next : String} :
    next ∈ (ofGrammar grammar start endMarker).rightSet symbol ↔
      grammar.ProperEdgePath .right symbol next :=
  mem_lookup_edgeSets wellFormed .right

/-- The pairs of a body with its tail are its neighbours. -/
theorem mem_zip_tail_iff {body : List String} {x y : String} :
    (x, y) ∈ body.zip body.tail ↔ ∃ before after, body = before ++ x :: y :: after := by
  induction body with
  | nil => simp
  | cons first others ih =>
    cases others with
    | nil =>
      refine ⟨fun held => absurd held (by simp), ?_⟩
      rintro ⟨before, after, isBody⟩
      have lengths := congrArg List.length isBody
      simp only [List.length_append, List.length_cons, List.length_nil] at lengths
      omega
    | cons second others =>
      rw [List.tail_cons, List.zip_cons_cons, List.mem_cons]
      rw [List.tail_cons] at ih
      constructor
      · rintro (same | held)
        · obtain ⟨rfl, rfl⟩ := Prod.mk.inj same
          exact ⟨[], others, rfl⟩
        · obtain ⟨before, after, isBody⟩ := ih.mp held
          exact ⟨first :: before, after, by rw [isBody, List.cons_append]⟩
      · rintro ⟨before, after, isBody⟩
        cases before with
        | nil =>
          simp only [List.nil_append, List.cons.injEq] at isBody
          obtain ⟨rfl, rfl, _⟩ := isBody
          exact Or.inl rfl
        | cons _ before =>
          rw [List.cons_append, List.cons.injEq] at isBody
          exact Or.inr (ih.mpr ⟨before, after, isBody.2⟩)

/-- The list of facts and the index of them are in step. -/
theorem indexed_ofGrammar (grammar : Grammar) (start endMarker : String) :
    (ofGrammar grammar start endMarker).Indexed :=
  (FactTable.ofFacts_spec _).1

/-- The facts are those found, in the order of first occurrence. -/
theorem facts_ofGrammar (grammar : Grammar) (start endMarker : String) :
    (ofGrammar grammar start endMarker).facts =
      distinct (factsFound grammar (ofGrammar grammar start endMarker).leftSet
        (ofGrammar grammar start endMarker).rightSet start endMarker) :=
  (FactTable.ofFacts_spec _).2

/-- No fact is listed twice. -/
theorem nodup_facts (grammar : Grammar) (start endMarker : String) :
    (ofGrammar grammar start endMarker).facts.Nodup := by
  rw [facts_ofGrammar]
  exact nodup_distinct _

/-- A relation holds when its fact is listed. -/
theorem holds_iff_mem {relations : Relations} (indexed : relations.Indexed) {left right : String}
    {relation : Relation} :
    relations.holds left relation right = true ↔ ⟨left, relation, right⟩ ∈ relations.facts :=
  indexed ⟨left, relation, right⟩

/-- A fact holds when some pair of neighbours gives it, or the ends do. -/
theorem holds_iff {left right : String} {relation : Relation} :
    (ofGrammar grammar start endMarker).holds left relation right = true ↔
      (∃ x y, grammar.Adjacent x y ∧ ⟨left, relation, right⟩ ∈
        factsOfPair grammar (ofGrammar grammar start endMarker).leftSet
          (ofGrammar grammar start endMarker).rightSet x y) ∨
      ⟨left, relation, right⟩ ∈ factsOfEnds (ofGrammar grammar start endMarker).leftSet
        (ofGrammar grammar start endMarker).rightSet start endMarker := by
  rw [holds_iff_mem (indexed_ofGrammar grammar start endMarker), facts_ofGrammar]
  simp only [factsFound, mem_distinct, List.mem_append, List.mem_flatMap, Prod.exists]
  refine or_congr (exists_congr fun x => exists_congr fun y => and_congr_left fun _ => ?_) Iff.rfl
  exact exists_congr fun production => and_congr_right fun _ => mem_zip_tail_iff

/-- Symbols are equal when they are neighbours in a body. -/
theorem holds_equal_iff {x y : String} :
    (ofGrammar grammar start endMarker).holds x .equal y = true ↔ grammar.Adjacent x y := by
  rw [holds_iff]
  constructor
  · rintro (⟨x, y, adjacent, held⟩ | held)
    · simp only [factsOfPair, List.mem_cons, List.mem_append] at held
      rcases held with (same | held) | held
      · cases same
        exact adjacent
      · split at held <;> simp at held
      · split at held <;> simp at held
    · simp [factsOfEnds] at held
  · exact fun adjacent => Or.inl ⟨x, y, adjacent, by simp [factsOfPair]⟩

/-- A symbol yields to what the non-terminal after it can begin with; the end marker yields to what
the start symbol can begin with. -/
theorem holds_yields_iff (wellFormed : grammar.WellFormed) {x z : String} :
    (ofGrammar grammar start endMarker).holds x .yields z = true ↔
      (∃ y, grammar.Adjacent x y ∧ grammar.ProperEdgePath .left y z) ∨
        x = endMarker ∧ grammar.ProperEdgePath .left start z := by
  rw [holds_iff]
  simp only [factsOfPair, factsOfEnds, List.mem_cons, List.mem_append]
  constructor
  · rintro (⟨x, y, adjacent, held⟩ | held)
    · rcases held with (same | held) | held
      · cases same
      · split at held
        · obtain ⟨other, found, same⟩ := List.mem_map.mp held
          cases same
          exact Or.inl ⟨y, adjacent, (mem_leftSet_iff wellFormed).mp found⟩
        · exact absurd held List.not_mem_nil
      · split at held <;> simp at held
    · rcases held with held | held
      · obtain ⟨other, found, same⟩ := List.mem_map.mp held
        cases same
        exact Or.inr ⟨rfl, (mem_leftSet_iff wellFormed).mp found⟩
      · simp at held
  · rintro (⟨y, adjacent, path⟩ | ⟨rfl, path⟩)
    · refine Or.inl ⟨x, y, adjacent, Or.inl (Or.inr ?_)⟩
      rw [if_pos (path.edgePath.isNonTerminal wellFormed)]
      exact List.mem_map.mpr ⟨z, (mem_leftSet_iff wellFormed).mpr path, rfl⟩
    · exact Or.inr (Or.inl (List.mem_map.mpr ⟨z, (mem_leftSet_iff wellFormed).mpr path, rfl⟩))

/-- What a non-terminal can end with takes over what the symbol after it can begin with; what the
start symbol can end with takes over the end marker. -/
theorem holds_takes_iff (wellFormed : grammar.WellFormed) {z w : String} :
    (ofGrammar grammar start endMarker).holds z .takes w = true ↔
      (∃ x y, grammar.Adjacent x y ∧ grammar.ProperEdgePath .right x z ∧ grammar.Begins y w) ∨
        w = endMarker ∧ grammar.ProperEdgePath .right start z := by
  have followers (y : String) : w ∈ (if grammar.isNonTerminal y = true then
      (ofGrammar grammar start endMarker).leftSet y else [y]) ↔ grammar.Begins y w := by
    rw [Grammar.Begins]
    split
    · exact mem_leftSet_iff wellFormed
    · exact List.mem_singleton
  rw [holds_iff]
  simp only [factsOfPair, factsOfEnds, List.mem_cons, List.mem_append]
  constructor
  · rintro (⟨x, y, adjacent, held⟩ | held)
    · rcases held with (same | held) | held
      · cases same
      · split at held <;> simp at held
      · split at held
        · obtain ⟨end', found, held⟩ := List.mem_flatMap.mp held
          obtain ⟨follower, begins, same⟩ := List.mem_map.mp held
          cases same
          exact Or.inl ⟨x, y, adjacent, (mem_rightSet_iff wellFormed).mp found,
            (followers y).mp begins⟩
        · exact absurd held List.not_mem_nil
    · rcases held with held | held
      · simp at held
      · obtain ⟨other, found, same⟩ := List.mem_map.mp held
        cases same
        exact Or.inr ⟨rfl, (mem_rightSet_iff wellFormed).mp found⟩
  · rintro (⟨x, y, adjacent, path, begins⟩ | ⟨rfl, path⟩)
    · refine Or.inl ⟨x, y, adjacent, Or.inr ?_⟩
      rw [if_pos (path.edgePath.isNonTerminal wellFormed)]
      refine List.mem_flatMap.mpr ⟨z, (mem_rightSet_iff wellFormed).mpr path, ?_⟩
      exact List.mem_map.mpr ⟨w, (followers y).mpr begins, rfl⟩
    · exact Or.inr (Or.inr (List.mem_map.mpr ⟨z, (mem_rightSet_iff wellFormed).mpr path, rfl⟩))

/-! ## Shifts and take-overs -/

/-- A symbol may be read after its neighbour before it in a body, after the neighbour before a
non-terminal that can begin with it, and after the end marker if the start symbol can begin with
it. -/
theorem shifts_iff (wellFormed : grammar.WellFormed) {x z : String} :
    (ofGrammar grammar start endMarker).shifts x z = true ↔
      grammar.Adjacent x z ∨ (∃ y, grammar.Adjacent x y ∧ grammar.ProperEdgePath .left y z) ∨
        x = endMarker ∧ grammar.ProperEdgePath .left start z := by
  rw [shifts, Bool.or_eq_true, holds_yields_iff wellFormed, holds_equal_iff]
  exact or_comm

/-- What may be read after some symbol stands in a body. -/
theorem occurs_of_shifts (wellFormed : grammar.WellFormed) {x z : String}
    (shifts : (ofGrammar grammar start endMarker).shifts x z = true) : grammar.Occurs z := by
  rcases (shifts_iff wellFormed).mp shifts with adjacent | ⟨_, _, path⟩ | ⟨_, path⟩
  · exact adjacent.occurs_right
  · exact path.edgePath.occurs
  · exact path.edgePath.occurs

/-- What some symbol may be read after stands in a body or is the end marker. -/
theorem occurs_or_eq_of_shifts (wellFormed : grammar.WellFormed) {x z : String}
    (shifts : (ofGrammar grammar start endMarker).shifts x z = true) :
    grammar.Occurs x ∨ x = endMarker := by
  rcases (shifts_iff wellFormed).mp shifts with adjacent | ⟨_, adjacent, _⟩ | ⟨isEnd, _⟩
  · exact Or.inl adjacent.occurs_left
  · exact Or.inl adjacent.occurs_left
  · exact Or.inr isEnd

/-- What takes over some symbol stands in a body. -/
theorem occurs_of_takes (wellFormed : grammar.WellFormed) {z w : String}
    (takes : (ofGrammar grammar start endMarker).holds z .takes w = true) : grammar.Occurs z := by
  rcases (holds_takes_iff wellFormed).mp takes with ⟨_, _, _, path, _⟩ | ⟨_, path⟩
  · exact path.edgePath.occurs
  · exact path.edgePath.occurs

/-- What begins a body of a symbol that may be read may be read in its place. -/
theorem shifts_of_edgeStep (wellFormed : grammar.WellFormed) {x y z : String}
    (shifts : (ofGrammar grammar start endMarker).shifts x y = true)
    (stepped : grammar.EdgeStep .left y z) :
    (ofGrammar grammar start endMarker).shifts x z = true := by
  by_cases direct : z = y
  · exact direct ▸ shifts
  have proper : grammar.ProperEdgeStep .left y z := ⟨stepped, direct⟩
  rw [shifts_iff wellFormed] at shifts ⊢
  rcases shifts with adjacent | ⟨before, adjacent, path⟩ | ⟨isEnd, path⟩
  · exact Or.inr (Or.inl ⟨y, adjacent, .single proper⟩)
  · exact Or.inr (Or.inl ⟨before, adjacent, .tail path proper⟩)
  · exact Or.inr (Or.inr ⟨isEnd, .tail path proper⟩)

/-- What takes over a symbol takes over what begins a body of it. -/
theorem takes_of_edgeStep (accepted : grammar.Accepted start endMarker) {z w first : String}
    (takes : (ofGrammar grammar start endMarker).holds z .takes w = true)
    (stepped : grammar.EdgeStep .left w first) :
    (ofGrammar grammar start endMarker).holds z .takes first = true := by
  have expands := Grammar.EdgePath.isNonTerminal accepted.toWellFormed (.single stepped)
  by_cases direct : first = w
  · exact direct ▸ takes
  rw [holds_takes_iff accepted.toWellFormed] at takes ⊢
  rcases takes with ⟨x, y, adjacent, path, begins⟩ | ⟨isEnd, _⟩
  · refine Or.inl ⟨x, y, adjacent, path, ?_⟩
    rw [Grammar.Begins] at begins ⊢
    split
    · rename_i nonTerminal
      rw [if_pos nonTerminal] at begins
      exact begins.tail ⟨stepped, direct⟩
    · rename_i unexpanded
      rw [if_neg unexpanded] at begins
      exact absurd (begins ▸ expands) unexpanded
  · exact absurd isEnd (accepted.ne_endMarker_of_isNonTerminal expands)

/-- A pair is in conflict when its left symbol takes over although the right one may be read. -/
theorem mem_conflicts_iff {relations : Relations} (indexed : relations.Indexed) {z w : String} :
    (z, w) ∈ relations.conflicts ↔
      relations.holds z .takes w = true ∧ relations.shifts z w = true := by
  simp only [conflicts, List.mem_filterMap, holds_iff_mem indexed]
  constructor
  · rintro ⟨⟨left, relation, right⟩, listed, chosen⟩
    split at chosen
    · rename_i conflict
      obtain ⟨rfl, shifts⟩ := conflict
      obtain ⟨rfl, rfl⟩ := Prod.mk.inj (Option.some.inj chosen)
      exact ⟨listed, shifts⟩
    · cases chosen
  · rintro ⟨listed, shifts⟩
    exact ⟨⟨z, .takes, w⟩, listed, if_pos ⟨rfl, shifts⟩⟩

/-- There is no conflict when nothing that takes over a symbol lets it be read. -/
theorem conflicts_eq_nil_iff {relations : Relations} (indexed : relations.Indexed) :
    relations.conflicts = [] ↔
      ∀ z w, relations.holds z .takes w = true → relations.shifts z w = false := by
  simp only [List.eq_nil_iff_forall_not_mem, Prod.forall, mem_conflicts_iff indexed, not_and,
    Bool.not_eq_true]

end Relations

end Precedence
