import Mathlib.Data.List.Infix
import Precedence.Proofs.Parser.Plan

/-!
# Tables of plans

A plan of a given grammar can be written down as a table: the places of each non-terminal, what can
be read first for it, whether nothing may be read for it, and how many empty symbols it may have
spent. Whether a table is a plan is decided by looking at each production in each place of its head.
-/

namespace Precedence.Parser

/-- A place where a non-terminal may be expected. -/
structure Place where
  /-- What is on top of the stack. -/
  below : String
  /-- The non-terminal. -/
  symbol : String
  /-- What follows the non-terminal. -/
  follow : String
  deriving DecidableEq

/-- A plan written down for the non-terminals of a grammar. -/
structure PlanTable where
  /-- The places of the non-terminals. -/
  places : List Place
  /-- What can be read first for a non-terminal. -/
  firsts : String → List String
  /-- The non-terminals that nothing may be read for. -/
  vanishing : List String
  /-- How many empty symbols may have been inserted since an element was read when a symbol is on
  top of the stack. -/
  spent : String → Nat

namespace PlanTable

variable (table : PlanTable) (parser : Parser)

/-- What can be read first for a symbol. -/
def begins (symbol : String) : List String :=
  if parser.grammar.isNonTerminal symbol then table.firsts symbol
  else if parser.grammar.isEmptySymbol symbol then [] else [symbol]

/-- Whether nothing may be read for a symbol. -/
def vanishes (symbol : String) : Bool :=
  if parser.grammar.isNonTerminal symbol then table.vanishing.contains symbol
  else parser.grammar.isEmptySymbol symbol

/-- What can be read first for symbols in a row. -/
def starts : List String → List String
  | [] => []
  | symbol :: after =>
    table.begins parser symbol ++ if table.vanishes parser symbol then starts after else []

/-- What can come next where symbols are left to read before another one. -/
def nexts (symbols : List String) (follow : String) : List String :=
  table.starts parser symbols ++ if symbols.all (table.vanishes parser) then [follow] else []

/-- Whether the symbols of a body can be stacked on a symbol one after another before another
symbol. -/
def admits (follow : String) : String → List String → Bool
  | _, [] => true
  | below, symbol :: after =>
    (if parser.grammar.isNonTerminal symbol then
      (table.nexts parser after follow).all fun next => ⟨below, symbol, next⟩ ∈ table.places
    else parser.grammar.isEmptySymbol symbol || parser.move below symbol = .read) &&
      admits follow symbol after

/-- Whether a production can be used in a place of its head. -/
def Fits (production : Production) (place : Place) : Prop :=
  table.admits parser place.follow place.below production.body = true ∧
    (∀ empty ∈ parser.grammar.emptySymbol, production.body = [empty] →
      place.below ≠ parser.start ∧ parser.move place.below place.follow = .insert empty ∧
        (∀ limit ∈ parser.insertionLimit, table.spent place.below < limit) ∧
        table.spent place.below < table.spent production.head) ∧
    parser.move (production.body.getLast?.getD place.below) place.follow = .reduce ∧
    parser.select production.key place.below = some production ∧
    (∀ other ∈ parser.grammar.productions, ∀ ending ∈ other.body.tails,
      ending.tail = production.body → ending.head? ≠ some place.below) ∧
    ((∀ symbol ∈ production.body, parser.grammar.isEmptySymbol symbol = false) →
      table.spent (production.body.getLast?.getD place.below) ≤ table.spent production.head) ∧
    (place.below = parser.endMarker → place.follow = parser.endMarker →
      production.body ≠ [parser.start])

/-- Whether a table is a plan of a parser. -/
def IsPlan : Prop :=
  (∀ empty ∈ parser.grammar.emptySymbol, parser.grammar.isNonTerminal empty = false) ∧
    ⟨parser.endMarker, parser.start, parser.endMarker⟩ ∈ table.places ∧
    (∀ production ∈ parser.grammar.productions,
      table.starts parser production.body ⊆ table.firsts production.head) ∧
    (∀ production ∈ parser.grammar.productions,
      production.body.all (table.vanishes parser) = true →
        production.head ∈ table.vanishing) ∧
    ∀ production ∈ parser.grammar.productions, ∀ place ∈ table.places,
      place.symbol = production.head → table.Fits parser production place

instance (production : Production) (place : Place) :
    Decidable (table.Fits parser production place) :=
  inferInstanceAs (Decidable (_ ∧ _))

instance : Decidable (table.IsPlan parser) :=
  inferInstanceAs (Decidable (_ ∧ _))

variable {table : PlanTable} {parser : Parser}

/-! ## What comes next -/

/-- Whether what is read first for a tree is among what can be. -/
def Begins (table : PlanTable) (parser : Parser) (tree : SyntaxTree) : Prop :=
  (tree.frontier parser.grammar = [] → table.vanishes parser tree.symbol = true) ∧
    ∀ first ∈ (tree.frontier parser.grammar).head?, first ∈ table.begins parser tree.symbol

/-- What is read first for trees in a row is among what can be. -/
theorem begins_of_trees {trees : List SyntaxTree}
    (begins : ∀ tree ∈ trees, table.Begins parser tree) :
    (trees.flatMap (SyntaxTree.frontier parser.grammar) = [] →
      (trees.map SyntaxTree.symbol).all (table.vanishes parser) = true) ∧
    ∀ first ∈ (trees.flatMap (SyntaxTree.frontier parser.grammar)).head?,
      first ∈ table.starts parser (trees.map SyntaxTree.symbol) := by
  induction trees with
  | nil => exact ⟨fun _ => rfl, fun _ none => nomatch none⟩
  | cons tree trees ih =>
    obtain ⟨vanishes, isFirst⟩ := begins tree List.mem_cons_self
    obtain ⟨laterVanish, laterFirst⟩ :=
      ih fun other held => begins other (List.mem_cons_of_mem _ held)
    rw [List.flatMap_cons, List.map_cons, List.all_cons, starts]
    cases isFrontier : tree.frontier parser.grammar with
    | nil =>
      rw [vanishes isFrontier, Bool.true_and, List.nil_append, if_pos rfl]
      exact ⟨laterVanish, fun first held => List.mem_append_right _ (laterFirst first held)⟩
    | cons leaf leaves =>
      rw [isFrontier] at isFirst
      refine ⟨fun none => absurd none (List.cons_ne_nil _ _), fun first held => ?_⟩
      exact List.mem_append_left _ (isFirst first held)

/-- What is read first for a parse tree is among what can be. -/
theorem begins_of_parsed (accepted : parser.Accepted) (isPlan : table.IsPlan parser)
    {tree : SyntaxTree} (parsed : tree.IsParseTree parser.grammar) : table.Begins parser tree := by
  obtain ⟨_, _, firsts, vanishing, _⟩ := isPlan
  induction parsed with
  | @terminal symbol unexpanded =>
    rw [Begins, SyntaxTree.frontier_leaf]
    simp only [SyntaxTree.leaf, SyntaxTree.symbol, vanishes, PlanTable.begins, unexpanded]
    by_cases isEmpty : parser.grammar.isEmptySymbol symbol = true <;> simp [isEmpty]
  | @expanded name children declared parsed ih =>
    have inner := SyntaxTree.IsParseTree.children_ne_nil accepted.toWellFormed declared
    have heads : parser.grammar.isNonTerminal name = true := accepted.isNonTerminal_head declared
    obtain ⟨vanish, isFirst⟩ := begins_of_trees ih
    rw [Begins, SyntaxTree.frontier_node _ _ _ inner]
    simp only [SyntaxTree.symbol, vanishes, PlanTable.begins, heads, if_true]
    refine ⟨fun none => ?_, fun first held => firsts _ declared (isFirst first held)⟩
    exact List.contains_iff_mem.mpr (vanishing _ declared (vanish none))

/-- What comes next is among what can. -/
theorem mem_nexts (accepted : parser.Accepted) (isPlan : table.IsPlan parser)
    {symbols : List String} {follow next : String}
    (comesNext : parser.ComesNext symbols follow next) :
    next ∈ table.nexts parser symbols follow := by
  obtain ⟨trees, rfl, parsed, isNext⟩ := comesNext
  obtain ⟨vanish, isFirst⟩ := begins_of_trees fun tree held =>
    begins_of_parsed accepted isPlan (parsed tree held)
  rw [nexts]
  cases isFrontier : trees.flatMap (SyntaxTree.frontier parser.grammar) with
  | nil =>
    rw [isFrontier] at isNext
    obtain rfl := Option.some.inj isNext
    rw [if_pos (vanish isFrontier)]
    exact List.mem_append_right _ List.mem_cons_self
  | cons leaf leaves =>
    rw [isFrontier] at isNext isFirst
    obtain rfl := Option.some.inj isNext
    exact List.mem_append_left _ (isFirst _ rfl)

/-! ## The plan of a table -/

/-- Whether a symbol may be expected according to a table: a non-terminal in one of its places, and
a terminal wherever it is read. -/
def Expects (table : PlanTable) (parser : Parser) (below symbol follow : String) : Prop :=
  if parser.grammar.isNonTerminal symbol then ⟨below, symbol, follow⟩ ∈ table.places
  else parser.grammar.isEmptySymbol symbol = false ∧ parser.move below symbol = .read

/-- A symbol of a body that can be stacked is expected after the symbols before it. -/
theorem expects_of_admits {below symbol follow next : String} {before after : List String}
    (admitted : table.admits parser follow below (before ++ symbol :: after) = true)
    (present : parser.grammar.isEmptySymbol symbol = false)
    (comesNext : next ∈ table.nexts parser after follow) :
    table.Expects parser (before.getLast?.getD below) symbol next := by
  induction before generalizing below with
  | nil =>
    rw [List.nil_append, admits, Bool.and_eq_true] at admitted
    rw [Expects]
    cases heads : parser.grammar.isNonTerminal symbol with
    | true =>
      rw [heads, if_pos rfl, List.all_eq_true] at admitted
      simpa using admitted.1 next comesNext
    | false =>
      rw [heads, present] at admitted
      simpa [present] using admitted.1
  | cons first before ih =>
    rw [List.cons_append, admits, Bool.and_eq_true] at admitted
    have later := ih admitted.2
    cases before with
    | nil => exact later
    | cons second before => simpa [List.getLast?_cons] using later

/-- A production fits into every place of its head. -/
theorem Expects.fits (accepted : parser.Accepted) (isPlan : table.IsPlan parser)
    {production : Production} {below follow : String}
    (expected : table.Expects parser below production.head follow)
    (declared : production ∈ parser.grammar.productions) :
    table.Fits parser production ⟨below, production.head, follow⟩ := by
  rw [Expects, if_pos (accepted.isNonTerminal_head declared)] at expected
  exact isPlan.2.2.2.2 production declared _ expected rfl

/-- A table that is a plan, as a plan. -/
def plan (table : PlanTable) (accepted : parser.Accepted) (isPlan : table.IsPlan parser) :
    Plan parser where
  Place := table.Expects parser
  spent := table.spent
  start := by
    rw [Expects, if_pos accepted.start_isNonTerminal]
    exact isPlan.2.1
  present := by
    intro below symbol follow expected
    rw [Expects] at expected
    split at expected
    · rename_i heads
      rw [Bool.eq_false_iff]
      intro isEmpty
      have unexpanded := isPlan.1 symbol (by simpa [Grammar.isEmptySymbol] using isEmpty)
      rw [heads] at unexpanded
      cases unexpanded
    · exact expected.1
  read := by
    intro below symbol follow expected unexpanded
    rw [Expects, if_neg (by simp [unexpanded])] at expected
    exact expected.2
  child := by
    intro head below follow expected before symbol after declared present next comesNext
    obtain ⟨admitted, _⟩ := Expects.fits accepted isPlan expected declared
    exact expects_of_admits admitted present (mem_nexts accepted isPlan comesNext)
  insert := by
    intro head below follow expected empty isEmpty declared
    obtain ⟨_, inserts, _⟩ := Expects.fits accepted isPlan expected declared
    exact inserts empty isEmpty rfl
  reduce := by
    intro production below follow expected declared
    obtain ⟨_, _, isMove, selected, _⟩ := Expects.fits accepted isPlan expected declared
    exact ⟨isMove, selected⟩
  apart := by
    intro production below follow expected declared other otherDeclared before symbol isBody
    obtain ⟨_, _, _, _, apart, _⟩ := Expects.fits accepted isPlan expected declared
    rintro rfl
    refine apart other otherDeclared (symbol :: production.body) ?_ rfl rfl
    exact (List.mem_tails _ _).mpr ⟨before, isBody.symm⟩
  spend := by
    intro production below follow expected declared present
    obtain ⟨_, _, _, _, _, spends, _⟩ := Expects.fits accepted isPlan expected declared
    exact spends present
  unaccepted := by
    intro head expected declared
    obtain ⟨_, _, _, _, _, _, different⟩ := Expects.fits accepted isPlan expected declared
    exact different rfl rfl rfl

end PlanTable

end Precedence.Parser
