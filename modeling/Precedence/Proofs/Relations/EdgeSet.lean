import Mathlib.Data.List.Basic
import Mathlib.Logic.Relation
import Precedence.Proofs.Grammar.Accepted
import Precedence.Relations.EdgePath

/-!
# Edge sets are exact

The search for edge symbols marks a non-terminal before it expands it, and every expansion marks
more. When an expansion returns, every non-terminal that it marked is settled: all proper steps
from it have been found, and their ends are marked too. A search that begins with nothing found and
only its root marked therefore settles everything that it marks, so it finds the ends of all proper
paths from its root, and no other symbol.
-/

namespace Precedence

/-- Whether a search has found every proper step from a symbol and marked its end. -/
def EdgeSearch.Settles (search : EdgeSearch) (grammar : Grammar) (edge : Edge)
    (symbol : String) : Prop :=
  ∀ next, grammar.ProperEdgeStep edge symbol next →
    next ∈ search.found ∧ (grammar.isNonTerminal next = true → next ∈ search.visited)

/-- What the expansion of a symbol does to a search. -/
structure EdgeSearch.Grows (grammar : Grammar) (edge : Edge) (symbol : String)
    (before after : EdgeSearch) : Prop where
  /-- Nothing found is lost. -/
  found_subset : before.found ⊆ after.found
  /-- Nothing marked is lost. -/
  visited_subset : before.visited ⊆ after.visited
  /-- What the expansion marks is settled. -/
  settled : ∀ other ∈ after.visited, other ∉ before.visited → after.Settles grammar edge other
  /-- What the expansion finds lies on a proper path from the symbol. -/
  reached : ∀ other ∈ after.found, other ∉ before.found →
    grammar.ProperEdgePath edge symbol other

namespace EdgeSearch

variable {grammar : Grammar} {edge : Edge} {symbol : String} {before middle after : EdgeSearch}

/-- A search that has seen more settles as much. -/
theorem Settles.mono (settles : before.Settles grammar edge symbol)
    (found : before.found ⊆ after.found) (visited : before.visited ⊆ after.visited) :
    after.Settles grammar edge symbol := by
  intro next stepped
  obtain ⟨nextFound, nextVisited⟩ := settles next stepped
  exact ⟨found nextFound, fun nonTerminal => visited (nextVisited nonTerminal)⟩

/-- A search grows by doing nothing. -/
theorem Grows.refl (search : EdgeSearch) : Grows grammar edge symbol search search where
  found_subset := List.Subset.refl _
  visited_subset := List.Subset.refl _
  settled _ held missing := absurd held missing
  reached _ held missing := absurd held missing

/-- A search that grows twice grows. -/
theorem Grows.trans (first : Grows grammar edge symbol before middle)
    (second : Grows grammar edge symbol middle after) :
    Grows grammar edge symbol before after where
  found_subset := List.Subset.trans first.found_subset second.found_subset
  visited_subset := List.Subset.trans first.visited_subset second.visited_subset
  settled other held missing := by
    by_cases early : other ∈ middle.visited
    · exact (first.settled other early missing).mono second.found_subset second.visited_subset
    · exact second.settled other held early
  reached other held missing := by
    by_cases early : other ∈ middle.found
    · exact first.reached other early missing
    · exact second.reached other held early

/-- A search grows by finding the end of a proper step. -/
theorem Grows.find {next : String} (stepped : grammar.ProperEdgeStep edge symbol next) :
    Grows grammar edge symbol before { before with found := addMissing before.found next } where
  found_subset _ held := mem_addMissing.mpr (Or.inl held)
  visited_subset := List.Subset.refl _
  settled _ held missing := absurd held missing
  reached other held missing := by
    rcases mem_addMissing.mp held with early | rfl
    · exact absurd early missing
    · exact .single stepped

/-- A search grows by marking the end of a proper step and expanding it, when that settles it. -/
theorem Grows.mark {next : String} (stepped : grammar.ProperEdgeStep edge symbol next)
    (growth : Grows grammar edge next { before with visited := next :: before.visited } after)
    (settles : after.Settles grammar edge next) : Grows grammar edge symbol before after where
  found_subset := growth.found_subset
  visited_subset _ held := growth.visited_subset (List.mem_cons_of_mem _ held)
  settled other held missing := by
    by_cases isNext : other = next
    · exact isNext ▸ settles
    · refine growth.settled other held ?_
      intro early
      exact (List.mem_cons.mp early).elim isNext missing
  reached other held missing := .head stepped (growth.reached other held missing)

/-- The non-terminals that a search has not marked. -/
def unvisited (grammar : Grammar) (search : EdgeSearch) : List String :=
  grammar.nonTerminals.filter (· ∉ search.visited)

/-- A search that has marked more leaves less to mark. -/
theorem length_unvisited_le (visited : before.visited ⊆ after.visited) :
    (unvisited grammar after).length ≤ (unvisited grammar before).length := by
  apply List.Sublist.length_le
  apply List.monotone_filter_right
  intro other missing
  simp only [decide_eq_true_eq] at missing ⊢
  exact fun held => missing (visited held)

/-- Marking a non-terminal leaves less to mark. -/
theorem length_unvisited_lt {next : String} (listed : next ∈ grammar.nonTerminals)
    (missing : next ∉ before.visited) :
    (unvisited grammar { before with visited := next :: before.visited }).length <
      (unvisited grammar before).length := by
  have split : unvisited grammar { before with visited := next :: before.visited } =
      (unvisited grammar before).filter (· ≠ next) := by
    rw [unvisited, unvisited, List.filter_filter]
    simp
  rw [split]
  refine List.length_filter_lt_length_iff_exists.mpr ⟨next, ?_, by simp⟩
  exact List.mem_filter.mpr ⟨listed, by simpa using missing⟩

end EdgeSearch

open EdgeSearch (Grows unvisited)

namespace Grammar

variable {grammar : Grammar} {edge : Edge}

/-- What an expansion of a marked symbol does when it has so many levels for the non-terminals not
marked yet. -/
def ExpandsWithin (grammar : Grammar) (edge : Edge) (levels : Nat)
    (expand : String → EdgeSearch → EdgeSearch) : Prop :=
  ∀ symbol search, symbol ∈ search.visited → (unvisited grammar search).length < levels →
    Grows grammar edge symbol search (expand symbol search) ∧
      (expand symbol search).Settles grammar edge symbol

/-- Following a production grows the search and finds and marks its edge symbol. -/
theorem followEdge_grows (wellFormed : grammar.WellFormed) {levels : Nat}
    {expandNext : String → EdgeSearch → EdgeSearch}
    (expands : grammar.ExpandsWithin edge levels expandNext) {symbol : String}
    {search : EdgeSearch} (room : (unvisited grammar search).length ≤ levels)
    {production : Production} (declared : production ∈ grammar.productions)
    (headed : production.head = symbol) :
    let after := grammar.followEdge edge symbol expandNext search production
    Grows grammar edge symbol search after ∧
      ∀ next, production.edge? edge = some next → next ≠ symbol →
        next ∈ after.found ∧ (grammar.isNonTerminal next = true → next ∈ after.visited) := by
  intro after
  cases edgeSymbol : production.edge? edge with
  | none =>
    have same : after = search := by simp [after, followEdge, edgeSymbol]
    rw [same]
    exact ⟨.refl _, fun _ isEdge => nomatch isEdge⟩
  | some next =>
    by_cases direct : next = symbol
    · have same : after = search := by simp [after, followEdge, edgeSymbol, direct]
      rw [same]
      refine ⟨.refl _, ?_⟩
      intro other isEdge proper
      obtain rfl := Option.some.inj isEdge
      exact absurd direct proper
    have stepped : grammar.ProperEdgeStep edge symbol next :=
      ⟨⟨production, declared, headed, edgeSymbol⟩, direct⟩
    let extended : EdgeSearch := { search with found := addMissing search.found next }
    have extension : Grows grammar edge symbol search extended := .find stepped
    have nextFound : next ∈ extended.found := mem_addMissing.mpr (Or.inr rfl)
    by_cases fresh : grammar.isNonTerminal next = true ∧ next ∉ search.visited
    · let marked : EdgeSearch := { extended with visited := next :: search.visited }
      have result : after = expandNext next marked := by
        simp [after, followEdge, edgeSymbol, direct, fresh, marked, extended]
      have listed := wellFormed.mem_nonTerminals_iff.mpr fresh.1
      have less : (unvisited grammar marked).length < levels :=
        Nat.lt_of_lt_of_le (EdgeSearch.length_unvisited_lt listed fresh.2) room
      obtain ⟨growth, settles⟩ := expands next marked List.mem_cons_self less
      rw [result]
      refine ⟨extension.trans (.mark stepped growth settles), ?_⟩
      intro other isEdge _
      obtain rfl := Option.some.inj isEdge
      exact ⟨growth.found_subset nextFound, fun _ => growth.visited_subset List.mem_cons_self⟩
    · have result : after = extended := by
        simp [after, followEdge, edgeSymbol, direct, fresh, extended]
      rw [result]
      refine ⟨extension, ?_⟩
      intro other isEdge _
      obtain rfl := Option.some.inj isEdge
      exact ⟨nextFound, fun nonTerminal => by_contra fun missing => fresh ⟨nonTerminal, missing⟩⟩

/-- Following productions one after another grows the search and finds and marks all their edge
symbols. -/
theorem foldl_followEdge_grows (wellFormed : grammar.WellFormed) {levels : Nat}
    {expandNext : String → EdgeSearch → EdgeSearch}
    (expands : grammar.ExpandsWithin edge levels expandNext) {symbol : String}
    {productions : List Production} (headed : ∀ production ∈ productions,
      production ∈ grammar.productions ∧ production.head = symbol)
    {search : EdgeSearch} (room : (unvisited grammar search).length ≤ levels) :
    let after := productions.foldl (grammar.followEdge edge symbol expandNext) search
    Grows grammar edge symbol search after ∧
      ∀ production ∈ productions, ∀ next, production.edge? edge = some next → next ≠ symbol →
        next ∈ after.found ∧ (grammar.isNonTerminal next = true → next ∈ after.visited) := by
  induction productions generalizing search with
  | nil => exact ⟨.refl _, List.forall_mem_nil _⟩
  | cons first others ih =>
    obtain ⟨declared, isHead⟩ := headed first List.mem_cons_self
    obtain ⟨growth, followed⟩ := followEdge_grows wellFormed expands room declared isHead
    have smaller := @EdgeSearch.length_unvisited_le grammar _ _ growth.visited_subset
    obtain ⟨laterGrowth, laterFollowed⟩ :=
      ih (fun other held => headed other (List.mem_cons_of_mem _ held)) (Nat.le_trans smaller room)
    refine ⟨growth.trans laterGrowth, ?_⟩
    intro production held next isEdge proper
    rcases List.mem_cons.mp held with rfl | held
    · obtain ⟨nextFound, nextVisited⟩ := followed next isEdge proper
      exact ⟨laterGrowth.found_subset nextFound,
        fun nonTerminal => laterGrowth.visited_subset (nextVisited nonTerminal)⟩
    · exact laterFollowed production held next isEdge proper

/-- An expansion with a level for each non-terminal not marked yet settles its symbol. -/
theorem expandEdge_expandsWithin (wellFormed : grammar.WellFormed) (depth : Nat) :
    grammar.ExpandsWithin edge depth (grammar.expandEdge edge depth) := by
  induction depth with
  | zero => exact fun _ _ _ room => absurd room (Nat.not_lt_zero _)
  | succ depth ih =>
    intro symbol search _ room
    have headed : ∀ production ∈ grammar.productionsWithHead symbol,
        production ∈ grammar.productions ∧ production.head = symbol := by
      intro production held
      rw [wellFormed.productionsWithHead_eq] at held
      simpa using held
    obtain ⟨growth, followed⟩ :=
      foldl_followEdge_grows wellFormed ih headed (Nat.le_of_lt_succ room)
    refine ⟨growth, ?_⟩
    intro next stepped
    obtain ⟨⟨production, declared, isHead, isEdge⟩, proper⟩ := stepped
    have listed : production ∈ grammar.productionsWithHead symbol := by
      rw [wellFormed.productionsWithHead_eq]
      simpa using ⟨declared, isHead⟩
    exact followed production listed next isEdge proper

/-- A search that settles a symbol and everything that it has marked has found the end of every
proper path from the symbol. -/
theorem found_of_path (wellFormed : grammar.WellFormed) {search : EdgeSearch}
    {symbol next : String} (settles : search.Settles grammar edge symbol)
    (settled : ∀ other ∈ search.visited, search.Settles grammar edge other)
    (path : grammar.ProperEdgePath edge symbol next) :
    next ∈ search.found ∧ (grammar.isNonTerminal next = true → next ∈ search.visited) := by
  induction path with
  | single stepped => exact settles _ stepped
  | tail _ stepped ih =>
    obtain ⟨⟨production, declared, isHead, _⟩, _⟩ := id stepped
    have heads := wellFormed.isNonTerminal_iff.mpr ⟨production, declared, isHead⟩
    exact settled _ (ih.2 heads) _ stepped

/-- An edge set holds exactly the ends of the proper paths from its symbol. -/
theorem mem_edgeSet_iff (wellFormed : grammar.WellFormed) {symbol next : String}
    (nonTerminal : grammar.isNonTerminal symbol = true) :
    next ∈ grammar.edgeSet edge symbol ↔ grammar.ProperEdgePath edge symbol next := by
  have listed := wellFormed.mem_nonTerminals_iff.mpr nonTerminal
  have room : (unvisited grammar ⟨[], [symbol]⟩).length < grammar.nonTerminals.length :=
    List.length_filter_lt_length_iff_exists.mpr ⟨symbol, listed, by simp⟩
  obtain ⟨growth, settles⟩ :=
    @expandEdge_expandsWithin grammar edge wellFormed grammar.nonTerminals.length symbol
      ⟨[], [symbol]⟩ List.mem_cons_self room
  constructor
  · exact fun found => growth.reached next found List.not_mem_nil
  · intro path
    refine (found_of_path wellFormed settles ?_ path).1
    intro other visited
    by_cases isRoot : other = symbol
    · exact isRoot ▸ settles
    · exact growth.settled other visited (by simpa using isRoot)

end Grammar

end Precedence
