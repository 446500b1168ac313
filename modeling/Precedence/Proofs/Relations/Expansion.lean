import Mathlib.Data.List.Nodup
import Precedence.Proofs.Relations.Facts

/-!
# Every expansion ends

The search for edge symbols goes only as deep as there are non-terminals. An `Expansion` is the same
search without a bound: productions are followed in turn, and where a non-terminal is met for the
first time its own expansion comes in between. It has at most one result, because every step of it
is forced. The bounded search follows one, because it has a level left for each non-terminal that is
not marked yet; so an expansion always ends, and the bound is never felt.

The edge sets are therefore what the unbounded search finds. They hold the ends of the proper paths,
each once, and the paths do not depend on the order of the productions.
-/

namespace Precedence

open EdgeSearch (unvisited)

namespace Grammar

/-- What following productions of a symbol in turn makes of a search, however deep it goes. -/
inductive Expansion (grammar : Grammar) (edge : Edge) :
    String → List Production → EdgeSearch → EdgeSearch → Prop
  /-- No production is left. -/
  | done (symbol : String) (search : EdgeSearch) : Expansion grammar edge symbol [] search search
  /-- A production adds nothing if it has no edge symbol but its own head. -/
  | skip {symbol : String} {production : Production} {productions : List Production}
      {search after : EdgeSearch} (direct : ∀ next ∈ production.edge? edge, next = symbol)
      (others : Expansion grammar edge symbol productions search after) :
      Expansion grammar edge symbol (production :: productions) search after
  /-- An edge symbol is found, and expanded no further if it is no non-terminal or is marked. -/
  | find {symbol next : String} {production : Production} {productions : List Production}
      {search after : EdgeSearch} (isEdge : production.edge? edge = some next)
      (proper : next ≠ symbol) (known : grammar.isNonTerminal next = true → next ∈ search.visited)
      (others : Expansion grammar edge symbol productions
        ⟨addMissing search.found next, search.visited⟩ after) :
      Expansion grammar edge symbol (production :: productions) search after
  /-- A non-terminal that is not marked is found, marked and expanded. -/
  | expand {symbol next : String} {production : Production} {productions : List Production}
      {search middle after : EdgeSearch} (isEdge : production.edge? edge = some next)
      (proper : next ≠ symbol) (nonTerminal : grammar.isNonTerminal next = true)
      (fresh : next ∉ search.visited)
      (inner : Expansion grammar edge next (grammar.productionsWithHead next)
        ⟨addMissing search.found next, next :: search.visited⟩ middle)
      (others : Expansion grammar edge symbol productions middle after) :
      Expansion grammar edge symbol (production :: productions) search after

variable {grammar : Grammar} {edge : Edge} {symbol : String} {productions : List Production}
  {before after : EdgeSearch}

/-! ## Results of expansions -/

/-- An expansion has no second result. -/
theorem Expansion.unique (expansion : Expansion grammar edge symbol productions before after)
    {other : EdgeSearch} (second : Expansion grammar edge symbol productions before other) :
    after = other := by
  induction expansion generalizing other with
  | done =>
    cases second
    rfl
  | skip direct _ ih =>
    cases second with
    | skip _ others => exact ih others
    | find isEdge proper => exact absurd (direct _ isEdge) proper
    | expand isEdge proper => exact absurd (direct _ isEdge) proper
  | find isEdge proper known _ ih =>
    cases second with
    | skip direct => exact absurd (direct _ isEdge) proper
    | find alsoEdge _ _ others =>
      obtain rfl := Option.some.inj (isEdge.symm.trans alsoEdge)
      exact ih others
    | expand alsoEdge _ nonTerminal fresh =>
      obtain rfl := Option.some.inj (isEdge.symm.trans alsoEdge)
      exact absurd (known nonTerminal) fresh
  | expand isEdge proper nonTerminal fresh _ _ ihInner ihOthers =>
    cases second with
    | skip direct => exact absurd (direct _ isEdge) proper
    | find alsoEdge _ known =>
      obtain rfl := Option.some.inj (isEdge.symm.trans alsoEdge)
      exact absurd (known nonTerminal) fresh
    | expand alsoEdge _ _ _ inner others =>
      obtain rfl := Option.some.inj (isEdge.symm.trans alsoEdge)
      obtain rfl := ihInner inner
      exact ihOthers others

/-- An expansion finds no symbol twice. -/
theorem Expansion.nodup (expansion : Expansion grammar edge symbol productions before after)
    (nodup : before.found.Nodup) : after.found.Nodup := by
  induction expansion with
  | done => exact nodup
  | skip _ _ ih => exact ih nodup
  | find _ _ _ _ ih => exact ih (nodup_addMissing _ nodup)
  | expand _ _ _ _ _ _ ihInner ihOthers => exact ihOthers (ihInner (nodup_addMissing _ nodup))

/-! ## The bounded search -/

/-- Following productions in turn is an expansion, if expanding what they lead to is one whenever
there are levels enough. -/
theorem expansion_foldl (wellFormed : grammar.WellFormed) {levels : Nat}
    {expandNext : String → EdgeSearch → EdgeSearch}
    (expands : grammar.ExpandsWithin edge levels expandNext)
    (follows : ∀ next search, (unvisited grammar search).length < levels →
      Expansion grammar edge next (grammar.productionsWithHead next) search
        (expandNext next search))
    (headed : ∀ production ∈ productions,
      production ∈ grammar.productions ∧ production.head = symbol)
    {search : EdgeSearch} (room : (unvisited grammar search).length ≤ levels) :
    Expansion grammar edge symbol productions search
      (productions.foldl (grammar.followEdge edge symbol expandNext) search) := by
  induction productions generalizing search with
  | nil => exact .done symbol search
  | cons production productions ih =>
    obtain ⟨declared, isHead⟩ := headed production List.mem_cons_self
    have growth := (followEdge_grows wellFormed expands room declared isHead).1
    have less := @EdgeSearch.length_unvisited_le grammar _ _ growth.visited_subset
    have others := ih (fun other held => headed other (List.mem_cons_of_mem _ held))
      (Nat.le_trans less room)
    rw [List.foldl_cons]
    cases edgeSymbol : production.edge? edge with
    | none =>
      refine .skip (by simp [edgeSymbol]) ?_
      simpa [followEdge, edgeSymbol] using others
    | some next =>
      by_cases direct : next = symbol
      · refine .skip (by simp [edgeSymbol, direct]) ?_
        simpa [followEdge, edgeSymbol, direct] using others
      by_cases fresh : grammar.isNonTerminal next = true ∧ next ∉ search.visited
      · let marked : EdgeSearch := ⟨addMissing search.found next, next :: search.visited⟩
        have listed := wellFormed.mem_nonTerminals_iff.mpr fresh.1
        have fewer : (unvisited grammar marked).length < levels :=
          Nat.lt_of_lt_of_le (EdgeSearch.length_unvisited_lt listed fresh.2) room
        refine .expand edgeSymbol direct fresh.1 fresh.2 (follows next marked fewer) ?_
        simpa [followEdge, edgeSymbol, direct, fresh] using others
      · refine .find edgeSymbol direct
          (fun nonTerminal => by_contra fun missing => fresh ⟨nonTerminal, missing⟩) ?_
        simpa [followEdge, edgeSymbol, direct, fresh] using others

/-- The bounded search is an expansion if it has a level for each non-terminal not marked yet. -/
theorem expansion_expandEdge (wellFormed : grammar.WellFormed) (depth : Nat) (symbol : String)
    (search : EdgeSearch) (room : (unvisited grammar search).length < depth) :
    Expansion grammar edge symbol (grammar.productionsWithHead symbol) search
      (grammar.expandEdge edge depth symbol search) := by
  induction depth generalizing symbol search with
  | zero => exact absurd room (Nat.not_lt_zero _)
  | succ depth ih =>
    have headed : ∀ production ∈ grammar.productionsWithHead symbol,
        production ∈ grammar.productions ∧ production.head = symbol := by
      intro production held
      rw [wellFormed.productionsWithHead_eq] at held
      simpa using held
    exact expansion_foldl wellFormed (expandEdge_expandsWithin wellFormed depth) ih headed
      (Nat.le_of_lt_succ room)

/-- The edge set of a non-terminal is what its expansion finds. -/
theorem expansion_edgeSet (wellFormed : grammar.WellFormed)
    (nonTerminal : grammar.isNonTerminal symbol = true) :
    ∃ visited, Expansion grammar edge symbol (grammar.productionsWithHead symbol) ⟨[], [symbol]⟩
      ⟨grammar.edgeSet edge symbol, visited⟩ := by
  have listed := wellFormed.mem_nonTerminals_iff.mpr nonTerminal
  have room : (unvisited grammar ⟨[], [symbol]⟩).length < grammar.nonTerminals.length :=
    List.length_filter_lt_length_iff_exists.mpr ⟨symbol, listed, by simp⟩
  exact ⟨_, expansion_expandEdge wellFormed _ symbol _ room⟩

/-! ## Cycles -/

/-- A proper path leads from a symbol back to it exactly if there is another non-terminal on it. -/
theorem properEdgePath_self_iff (wellFormed : grammar.WellFormed) :
    grammar.ProperEdgePath edge symbol symbol ↔ ∃ other, other ≠ symbol ∧
      grammar.isNonTerminal other = true ∧ grammar.ProperEdgePath edge symbol other ∧
        grammar.ProperEdgePath edge other symbol := by
  constructor
  · intro path
    obtain ⟨other, stepped, back⟩ := Relation.TransGen.head'_iff.mp path
    rcases Relation.reflTransGen_iff_eq_or_transGen.mp back with same | back
    · exact absurd same.symm stepped.2
    · have heads := (ProperEdgePath.edgePath back).isNonTerminal wellFormed
      exact ⟨other, stepped.2, heads, .single stepped, back⟩
  · rintro ⟨other, _, _, path, back⟩
    exact path.trans back

/-! ## The order of productions -/

/-- A list of productions with no empty body and no misplaced empty symbol is without fault. -/
theorem checkProductions_eq_ok {emptySymbol : Option String}
    (sound : ∀ production ∈ productions, production.body ≠ [] ∧
      ∀ empty ∈ emptySymbol, empty ∈ production.body → production.body = [empty]) :
    checkProductions emptySymbol productions = .ok () := by
  induction productions with
  | nil => rfl
  | cons first others ih =>
    obtain ⟨nonempty, alone⟩ := sound first List.mem_cons_self
    have placed : ¬ (1 < first.body.length ∧ ∃ empty ∈ emptySymbol, empty ∈ first.body) := by
      rintro ⟨long, empty, declared, inBody⟩
      rw [alone empty declared inBody] at long
      exact absurd long (Nat.lt_irrefl 1)
    rw [checkProductions, if_neg (by simpa using nonempty), if_neg placed]
    exact ih fun production held => sound production (List.mem_cons_of_mem _ held)

/-- Productions that make a grammar make one in every order. -/
theorem exists_ofProductions_of_perm {emptySymbol : Option String} {others : List Production}
    (made : ofProductions productions emptySymbol = .ok grammar)
    (perm : others.Perm productions) :
    ∃ other, ofProductions others emptySymbol = .ok other := by
  obtain ⟨wellFormed, rfl, rfl⟩ := ofProductions_ok made
  have checked : checkProductions grammar.emptySymbol others = .ok () := by
    refine checkProductions_eq_ok fun production held => ?_
    have declared := perm.mem_iff.mp held
    exact ⟨wellFormed.body_ne_nil production declared,
      fun empty isEmpty => wellFormed.empty_alone empty isEmpty production declared⟩
  have some : others.isEmpty = false := by
    cases others with
    | nil => simp [ofProductions, perm.nil_eq.symm] at made
    | cons => rfl
  exact ⟨_, by rw [ofProductions, some, checked]; rfl⟩

/-- Grammars with the same productions, in whatever order, have the same proper paths. -/
theorem properEdgePath_iff_of_perm {other : Grammar}
    (perm : other.productions.Perm grammar.productions) {next : String} :
    other.ProperEdgePath edge symbol next ↔ grammar.ProperEdgePath edge symbol next := by
  have steps : other.ProperEdgeStep edge = grammar.ProperEdgeStep edge := by
    funext first second
    simp only [ProperEdgeStep, EdgeStep, perm.mem_iff]
  rw [ProperEdgePath, ProperEdgePath, steps]

end Grammar

namespace Relations

variable {grammar : Grammar} {edge : Edge} {start endMarker symbol : String}

/-- The left or the right set of a symbol. -/
def edgeSet (relations : Relations) (edge : Edge) (symbol : String) : List String :=
  match edge with
  | .left => relations.leftSet symbol
  | .right => relations.rightSet symbol

/-- The sets of a non-terminal are those that the search finds. -/
theorem edgeSet_eq (wellFormed : grammar.WellFormed)
    (nonTerminal : grammar.isNonTerminal symbol = true) :
    (ofGrammar grammar start endMarker).edgeSet edge symbol = grammar.edgeSet edge symbol := by
  have listed := wellFormed.mem_nonTerminals_iff.mpr nonTerminal
  have found : ((grammar.nonTerminals.map fun head => (head, grammar.edgeSet edge head)).lookup
      symbol).getD [] = grammar.edgeSet edge symbol := by
    rw [List.lookup_graph _ listed, Option.getD_some]
  cases edge with
  | left => exact found
  | right => exact found

/-- The sets of a symbol hold the ends of its proper paths. -/
theorem mem_edgeSet_iff (wellFormed : grammar.WellFormed) {next : String} :
    next ∈ (ofGrammar grammar start endMarker).edgeSet edge symbol ↔
      grammar.ProperEdgePath edge symbol next := by
  cases edge with
  | left => exact mem_leftSet_iff wellFormed
  | right => exact mem_rightSet_iff wellFormed

/-- The sets of a symbol hold nothing twice. -/
theorem nodup_edgeSet (wellFormed : grammar.WellFormed) :
    ((ofGrammar grammar start endMarker).edgeSet edge symbol).Nodup := by
  cases nonTerminal : grammar.isNonTerminal symbol with
  | true =>
    obtain ⟨visited, expansion⟩ := Grammar.expansion_edgeSet wellFormed nonTerminal
    rw [edgeSet_eq wellFormed nonTerminal]
    exact expansion.nodup List.nodup_nil
  | false =>
    have none : (ofGrammar grammar start endMarker).edgeSet edge symbol = [] := by
      rw [List.eq_nil_iff_forall_not_mem]
      intro next held
      have path := (mem_edgeSet_iff wellFormed).mp held
      rw [path.edgePath.isNonTerminal wellFormed] at nonTerminal
      cases nonTerminal
    rw [none]
    exact List.nodup_nil

/-- In every grammar, the left and the right set of a non-terminal hold the ends of the proper paths
from it, each once; it is itself among them exactly if it lies on a cycle through another
non-terminal. Expanding it without a bound on the depth ends, with the set as its only result. The
same productions in another order make a grammar with the same sets. -/
theorem edgeSets_exact {productions : List Production} {emptySymbol : Option String}
    (made : Grammar.ofProductions productions emptySymbol = .ok grammar)
    (start endMarker : String) :
    let relations := ofGrammar grammar start endMarker
    (∀ edge symbol, grammar.isNonTerminal symbol = true →
      (relations.edgeSet edge symbol).Nodup ∧
        (∀ next, next ∈ relations.edgeSet edge symbol ↔
          grammar.ProperEdgePath edge symbol next) ∧
        (symbol ∈ relations.edgeSet edge symbol ↔ ∃ other, other ≠ symbol ∧
          grammar.isNonTerminal other = true ∧ grammar.ProperEdgePath edge symbol other ∧
            grammar.ProperEdgePath edge other symbol) ∧
        ∃ visited, ∀ after,
          grammar.Expansion edge symbol (grammar.productionsWithHead symbol) ⟨[], [symbol]⟩ after ↔
            after = ⟨relations.edgeSet edge symbol, visited⟩) ∧
      ∀ others, others.Perm productions →
        ∃ other, Grammar.ofProductions others emptySymbol = .ok other ∧ ∀ edge symbol,
          ((ofGrammar other start endMarker).edgeSet edge symbol).Perm
            (relations.edgeSet edge symbol) := by
  intro relations
  obtain ⟨wellFormed, isProductions, _⟩ := Grammar.ofProductions_ok made
  refine ⟨fun edge symbol nonTerminal => ?_, fun others perm => ?_⟩
  · obtain ⟨visited, expansion⟩ := Grammar.expansion_edgeSet wellFormed nonTerminal
    rw [← edgeSet_eq wellFormed nonTerminal] at expansion
    refine ⟨nodup_edgeSet wellFormed, fun next => mem_edgeSet_iff wellFormed, ?_, visited, ?_⟩
    · rw [mem_edgeSet_iff wellFormed, Grammar.properEdgePath_self_iff wellFormed]
    · intro after
      constructor
      · exact fun other => other.unique expansion
      · rintro rfl
        exact expansion
  · obtain ⟨other, alsoMade⟩ := Grammar.exists_ofProductions_of_perm made perm
    obtain ⟨alsoWellFormed, areOthers, _⟩ := Grammar.ofProductions_ok alsoMade
    rw [← isProductions, ← areOthers] at perm
    refine ⟨other, alsoMade, fun edge symbol => ?_⟩
    rw [List.perm_ext_iff_of_nodup (nodup_edgeSet alsoWellFormed) (nodup_edgeSet wellFormed)]
    intro next
    rw [mem_edgeSet_iff alsoWellFormed, mem_edgeSet_iff wellFormed,
      Grammar.properEdgePath_iff_of_perm perm]

/-- Two non-terminals that begin with each other, one of them with itself besides: the left set of
each has both, in either order of the productions. -/
theorem edgeSets_exact_mutual :
    let productions : List Production :=
      [⟨"S", ["A", "x"]⟩, ⟨"S", ["y"]⟩, ⟨"A", ["A", "w"]⟩, ⟨"A", ["S", "z"]⟩]
    let grammar := Grammar.index productions none
    let reversed := Grammar.index productions.reverse none
    Grammar.ofProductions productions none = .ok grammar ∧
      "S" ∈ (ofGrammar grammar "S" "$").edgeSet .left "S" ∧
      ((ofGrammar reversed "S" "$").edgeSet .left "S").Perm
        ((ofGrammar grammar "S" "$").edgeSet .left "S") := by
  intro productions grammar reversed
  have made : Grammar.ofProductions productions none = .ok grammar := rfl
  obtain ⟨exact, ordered⟩ := edgeSets_exact made "S" "$"
  have toOther : grammar.ProperEdgeStep .left "S" "A" :=
    ⟨⟨⟨"S", ["A", "x"]⟩, List.mem_cons_self, rfl, rfl⟩, by decide⟩
  have back : grammar.ProperEdgeStep .left "A" "S" :=
    ⟨⟨⟨"A", ["S", "z"]⟩, by decide, rfl, rfl⟩, by decide⟩
  have onCycle := (exact .left "S" (by decide +kernel)).2.2.1.mpr
    ⟨"A", by decide, by decide +kernel, .single toOther, .single back⟩
  obtain ⟨other, alsoMade, same⟩ := ordered productions.reverse productions.reverse_perm
  obtain rfl : reversed = other := Except.ok.inj alsoMade
  exact ⟨made, onCycle, same .left "S"⟩

end Relations

end Precedence
