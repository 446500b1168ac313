import Mathlib.Data.List.Infix
import Mathlib.Data.List.Nodup
import Precedence.Proofs.Parser.Bundled
import Precedence.Proofs.Parser.Plan

/-!
# Weak precedence grammars

Where a symbol is expected in a weak precedence grammar, the symbol on top of the stack shifts to
it, so it shifts to whatever begins the symbol, and whatever ends the symbol takes over what
follows. A body on top of the stack where its head is expected is the longest one there, because a
longer body would have to be separated from it by a symbol that does not shift to its head.
-/

namespace Precedence.Parser

/-- A weak precedence grammar without empty symbol, as far as the parser depends on it. -/
structure WeakPrecedence (parser : Parser) : Prop where
  /-- There is no empty symbol. -/
  no_empty : parser.grammar.emptySymbol = none
  /-- No production ends with its own head. -/
  no_right_recursion : ∀ production ∈ parser.grammar.productions,
    production.last? ≠ some production.head
  /-- Productions with a single symbol in their body have no cycle. -/
  acyclic : parser.grammar.UnitAcyclic
  /-- All bodies are different. -/
  bodies_nodup : (parser.grammar.productions.map Production.body).Nodup
  /-- No pair of symbols calls for a shift and a reduction. -/
  conflict_free : parser.relations.conflicts = []
  /-- A symbol before a body that ends another body does not shift to the head of the body. -/
  separated : ∀ longer ∈ parser.grammar.productions, ∀ shorter ∈ parser.grammar.productions,
    ∀ before symbol, longer.body = before ++ symbol :: shorter.body →
      parser.relations.shifts symbol shorter.head = false

variable {parser : Parser}

/-- What holds where a symbol is expected with a symbol on top of the stack and one that follows. -/
structure Expects (parser : Parser) (below symbol follow : String) : Prop where
  /-- The top shifts to the symbol, unless it is the start symbol of the whole input. -/
  covers : parser.relations.shifts below symbol = true ∨
    below = parser.endMarker ∧ symbol = parser.start
  /-- What ends the symbol takes over what follows it. -/
  closes : ∀ last, parser.grammar.EdgePath .right symbol last →
    parser.relations.holds last .takes follow = true
  /-- Where the symbol is the whole input, it stands for the start symbol. -/
  whole : below = parser.endMarker → follow = parser.endMarker →
    Relation.ReflTransGen parser.grammar.UnitStep parser.start symbol
  /-- What follows is a terminal or the end marker. -/
  follows : follow ∈ parser.grammar.terminals ∨ follow = parser.endMarker

/-! ## What follows a symbol -/

/-- The first leaf of a parse tree is the tree, or a left path leads to it. -/
theorem edgePath_of_leaves {grammar : Grammar} (wellFormed : grammar.WellFormed)
    {tree : SyntaxTree} (parsed : tree.IsParseTree grammar) {first : String}
    {others : List String} (isFirst : tree.leaves.map SyntaxTree.symbol = first :: others) :
    first = tree.symbol ∨ grammar.EdgePath .left tree.symbol first := by
  induction parsed generalizing others with
  | terminal =>
    rw [SyntaxTree.leaf, SyntaxTree.leaves_nil] at isFirst
    exact Or.inl (List.cons.inj isFirst).1.symm
  | @expanded name children declared parsed ih =>
    have inner := SyntaxTree.IsParseTree.children_ne_nil wellFormed declared
    obtain ⟨child, later, rfl⟩ := List.exists_cons_of_ne_nil inner
    have stepped : grammar.EdgeStep .left name child.symbol := ⟨_, declared, rfl, rfl⟩
    obtain ⟨leaf, leaves, isLeaf⟩ := List.exists_cons_of_ne_nil
      ((parsed child List.mem_cons_self).leaves_ne_nil wellFormed)
    rw [SyntaxTree.leaves_node _ _ inner, List.flatMap_cons, isLeaf, List.cons_append,
      List.map_cons] at isFirst
    obtain ⟨rfl, _⟩ := List.cons.inj isFirst
    rcases ih child List.mem_cons_self (by rw [isLeaf, List.map_cons]) with same | path
    · exact Or.inr (.single (same ▸ stepped))
    · exact Or.inr (.head stepped path)

/-- What a parse tree begins with begins its symbol. -/
theorem begins_of_leaves {grammar : Grammar} (wellFormed : grammar.WellFormed)
    {tree : SyntaxTree} (parsed : tree.IsParseTree grammar) {first : String}
    {others : List String} (isFirst : tree.leaves.map SyntaxTree.symbol = first :: others) :
    grammar.Begins tree.symbol first := by
  have unexpanded : grammar.isNonTerminal first = false :=
    parsed.isTerminalForm_leaves wellFormed first (isFirst ▸ List.mem_cons_self)
  have path : Relation.ReflTransGen (grammar.EdgeStep .left) tree.symbol first :=
    Relation.reflTransGen_iff_eq_or_transGen.mpr (edgePath_of_leaves wellFormed parsed isFirst)
  exact Grammar.begins_of_path wellFormed path unexpanded

/-- Without empty symbol a form is what is left of it without empty symbols. -/
theorem WeakPrecedence.withoutEmpty_eq (weak : parser.WeakPrecedence) (form : List String) :
    parser.grammar.withoutEmpty form = form := by
  simp [Grammar.withoutEmpty, Grammar.isEmptySymbol, weak.no_empty]

/-- What comes next where no symbol is left is what follows, and otherwise it is a symbol that the
next symbol begins with and that cannot be expanded. -/
theorem WeakPrecedence.comesNext_cases (weak : parser.WeakPrecedence) (accepted : parser.Accepted)
    {after : List String} {follow next : String}
    (comesNext : parser.ComesNext after follow next) :
    (after = [] ∧ next = follow) ∨ ∃ second others, after = second :: others ∧
      parser.grammar.Begins second next ∧ parser.grammar.isNonTerminal next = false := by
  obtain ⟨trees, rfl, parsed, isNext⟩ := comesNext
  cases trees with
  | nil => exact Or.inl ⟨rfl, (Option.some.inj isNext).symm⟩
  | cons tree trees =>
    have treeParsed := parsed tree List.mem_cons_self
    obtain ⟨leaf, leaves, isLeaf⟩ :=
      List.exists_cons_of_ne_nil (treeParsed.leaves_ne_nil accepted.toWellFormed)
    have isFirst : tree.leaves.map SyntaxTree.symbol =
        leaf.symbol :: leaves.map SyntaxTree.symbol := by rw [isLeaf, List.map_cons]
    have isFrontier : tree.frontier parser.grammar = leaf.symbol :: leaves.map SyntaxTree.symbol :=
      (weak.withoutEmpty_eq _).trans isFirst
    rw [List.flatMap_cons, isFrontier] at isNext
    obtain rfl := Option.some.inj isNext
    exact Or.inr ⟨_, _, rfl, begins_of_leaves accepted.toWellFormed treeParsed isFirst,
      treeParsed.isTerminalForm_leaves accepted.toWellFormed _ (isFirst ▸ List.mem_cons_self)⟩

/-- Without right recursion every right path is proper. -/
theorem WeakPrecedence.properEdgePath (weak : parser.WeakPrecedence) {symbol last : String}
    (path : parser.grammar.EdgePath .right symbol last) :
    parser.grammar.ProperEdgePath .right symbol last := by
  have proper : ∀ {symbol next}, parser.grammar.EdgeStep .right symbol next →
      parser.grammar.ProperEdgeStep .right symbol next := by
    intro symbol next stepped
    obtain ⟨production, declared, rfl, isLast⟩ := id stepped
    refine ⟨stepped, ?_⟩
    rintro rfl
    exact weak.no_right_recursion production declared isLast
  induction path with
  | single stepped => exact .single (proper stepped)
  | tail _ stepped ih => exact .tail ih (proper stepped)

/-- What takes over a symbol does not shift to it. -/
theorem WeakPrecedence.shifts_eq_false (weak : parser.WeakPrecedence) {last follow : String}
    (takes : parser.relations.holds last .takes follow = true) :
    parser.relations.shifts last follow = false :=
  (Relations.conflicts_eq_nil_iff parser.relations_indexed).mp weak.conflict_free last follow takes

/-- What ends a symbol takes over what its neighbour begins with. -/
theorem WeakPrecedence.takes_of_adjacent (weak : parser.WeakPrecedence)
    (accepted : parser.Accepted) {x y last first : String}
    (adjacent : parser.grammar.Adjacent x y)
    (path : parser.grammar.EdgePath .right x last) (begins : parser.grammar.Begins y first) :
    parser.relations.holds last .takes first = true := by
  rw [parser.relations_eq, Relations.holds_takes_iff accepted.toWellFormed]
  exact Or.inl ⟨x, y, adjacent, weak.properEdgePath path, begins⟩

/-- Where a symbol is expected, the top of the stack shifts to what begins its bodies, but for the
start symbol in the place of the whole input. -/
theorem Expects.covers_first (accepted : parser.Accepted) {below symbol follow first : String}
    (expected : parser.Expects below symbol follow)
    (stepped : parser.grammar.EdgeStep .left symbol first) :
    parser.relations.shifts below first = true ∨
      below = parser.endMarker ∧ first = parser.start := by
  rcases expected.covers with shifts | ⟨rfl, rfl⟩
  · rw [parser.relations_eq] at shifts ⊢
    exact Or.inl (Relations.shifts_of_edgeStep accepted.toWellFormed shifts stepped)
  · by_cases isStart : first = parser.start
    · exact Or.inr ⟨rfl, isStart⟩
    · refine Or.inl ((relations_shifts_iff accepted).mpr (Or.inr (Or.inr ⟨rfl, ?_⟩)))
      exact .single ⟨stepped, isStart⟩

/-- The first symbol of a body is expected on the same top as the head, and any other one on the
symbol before it. -/
theorem Expects.covers_child (accepted : parser.Accepted) {below name symbol follow : String}
    {before after : List String} (expected : parser.Expects below name follow)
    (declared : ⟨name, before ++ symbol :: after⟩ ∈ parser.grammar.productions) :
    parser.relations.shifts (before.getLast?.getD below) symbol = true ∨
      before = [] ∧ below = parser.endMarker ∧ symbol = parser.start := by
  rcases List.eq_nil_or_concat before with rfl | ⟨earlier, previous, rfl⟩
  · rcases expected.covers_first accepted ⟨_, declared, rfl, rfl⟩ with shifts | whole
    · exact Or.inl shifts
    · exact Or.inr ⟨rfl, whole⟩
  · refine Or.inl ((relations_shifts_iff accepted).mpr (Or.inl ?_))
    exact ⟨_, declared, earlier, after, by simp⟩

/-- The last symbol of a body is expected before what follows the head. -/
theorem Expects.last (accepted : parser.Accepted) {below name symbol follow : String}
    {before : List String} (expected : parser.Expects below name follow)
    (declared : ⟨name, before ++ [symbol]⟩ ∈ parser.grammar.productions) :
    parser.Expects (before.getLast?.getD below) symbol follow where
  covers := by
    rcases expected.covers_child accepted declared with shifts | ⟨rfl, whole⟩
    · exact Or.inl shifts
    · exact Or.inr whole
  closes last path := expected.closes last
    (.head ⟨_, declared, rfl, by simp [Production.edge?, Production.last?]⟩ path)
  whole isBelow isEnd := by
    rcases List.eq_nil_or_concat before with rfl | ⟨earlier, previous, rfl⟩
    · exact (expected.whole isBelow isEnd).tail declared
    · have occurs : parser.grammar.Occurs previous := ⟨_, declared, by simp⟩
      refine absurd ?_ (accepted.ne_endMarker_of_occurs occurs)
      simpa using isBelow
  follows := expected.follows

/-- A symbol of a body is expected before what its neighbour begins with. -/
theorem Expects.neighbour (weak : parser.WeakPrecedence) (accepted : parser.Accepted)
    {below name symbol second follow next : String} {before after : List String}
    (expected : parser.Expects below name follow)
    (declared : ⟨name, before ++ symbol :: second :: after⟩ ∈ parser.grammar.productions)
    (begins : parser.grammar.Begins second next)
    (unexpanded : parser.grammar.isNonTerminal next = false) :
    parser.Expects (before.getLast?.getD below) symbol next := by
  have secondOccurs : parser.grammar.Occurs second := ⟨_, declared, by simp⟩
  have occurs := begins.occurs secondOccurs
  refine ⟨?_, ?_, ?_, Or.inl ?_⟩
  · rcases expected.covers_child accepted declared with shifts | ⟨rfl, whole⟩
    · exact Or.inl shifts
    · exact Or.inr whole
  · exact fun last path =>
      weak.takes_of_adjacent accepted ⟨_, declared, before, after, rfl⟩ path begins
  · exact fun _ isEnd => absurd isEnd (accepted.ne_endMarker_of_occurs occurs)
  · exact accepted.mem_terminals_iff.mpr ⟨occurs, unexpanded, by simp [weak.no_empty]⟩

/-- A symbol that cannot be expanded is read where it is expected. -/
theorem Expects.move_eq_read (weak : parser.WeakPrecedence) (accepted : parser.Accepted)
    {below symbol follow : String} (expected : parser.Expects below symbol follow)
    (unexpanded : parser.grammar.isNonTerminal symbol = false) :
    parser.move below symbol = .read := by
  have shifts : parser.relations.shifts below symbol = true := by
    refine expected.covers.resolve_right ?_
    rintro ⟨_, rfl⟩
    rw [accepted.start_isNonTerminal] at unexpanded
    cases unexpanded
  refine (move_eq_read_iff accepted).mpr ⟨shifts, Or.inl ?_⟩
  exact accepted.mem_terminals_iff.mpr
    ⟨occurs_of_shifts accepted shifts, unexpanded, by simp [weak.no_empty]⟩

/-- A body on top of the stack is reduced where its head is expected. -/
theorem Expects.move_eq_reduce (weak : parser.WeakPrecedence) (accepted : parser.Accepted)
    {production : Production} {below follow : String}
    (expected : parser.Expects below production.head follow)
    (declared : production ∈ parser.grammar.productions) :
    parser.move (production.body.getLast?.getD below) follow = .reduce := by
  have nonempty := accepted.body_ne_nil production declared
  have isLast : parser.grammar.EdgeStep .right production.head (production.body.getLast nonempty) :=
    ⟨production, declared, rfl, List.getLast?_eq_some_getLast nonempty⟩
  have takes := expected.closes _ (.single isLast)
  rw [List.getLast?_eq_some_getLast nonempty, Option.getD_some]
  exact Parser.move_eq_reduce accepted takes (weak.shifts_eq_false takes) expected.follows

/-- A production is selected by its key. -/
theorem WeakPrecedence.select_key (weak : parser.WeakPrecedence) (accepted : parser.Accepted)
    {production : Production} (declared : production ∈ parser.grammar.productions)
    (beneath : String) : parser.select production.key beneath = some production :=
  select_of_unique accepted declared
    (fun _ otherDeclared same =>
      List.inj_on_of_nodup_map weak.bodies_nodup otherDeclared declared same)
    (by simp [Grammar.isEmptySymbol, weak.no_empty]) beneath

/-- What is on top of the stack where a head is expected does not stand before its body in a longer
body. -/
theorem Expects.apart (weak : parser.WeakPrecedence) (accepted : parser.Accepted)
    {production other : Production} {below follow : String}
    (expected : parser.Expects below production.head follow)
    (declared : production ∈ parser.grammar.productions)
    (otherDeclared : other ∈ parser.grammar.productions) {before : List String} {symbol : String}
    (isBody : other.body = before ++ symbol :: production.body) : symbol ≠ below := by
  rintro rfl
  rcases expected.covers with shifts | ⟨isEnd, _⟩
  · have unshifted := weak.separated other otherDeclared production declared before symbol isBody
    rw [shifts] at unshifted
    cases unshifted
  · have occurs : parser.grammar.Occurs symbol := ⟨other, otherDeclared, by simp [isBody]⟩
    exact accepted.ne_endMarker_of_occurs occurs isEnd

/-- A weak precedence grammar has a plan: its relations tell where a symbol is expected, and no
empty symbol is ever inserted. -/
def WeakPrecedence.plan (weak : parser.WeakPrecedence) (accepted : parser.Accepted) :
    Plan parser where
  Place := parser.Expects
  spent _ := 0
  start := by
    refine ⟨Or.inr ⟨rfl, rfl⟩, ?_, fun _ _ => .refl, Or.inr rfl⟩
    intro last path
    rw [parser.relations_eq, Relations.holds_takes_iff accepted.toWellFormed]
    exact Or.inr ⟨rfl, weak.properEdgePath path⟩
  present _ := by simp [Grammar.isEmptySymbol, weak.no_empty]
  read expected unexpanded := expected.move_eq_read weak accepted unexpanded
  child := by
    intro _ _ _ expected _ _ _ declared _ _ comesNext
    rcases weak.comesNext_cases accepted comesNext with ⟨rfl, rfl⟩ | ⟨_, _, rfl, begins, bare⟩
    · exact expected.last accepted declared
    · exact expected.neighbour weak accepted declared begins bare
  insert := by
    intro _ _ _ _ _ isEmpty
    rw [weak.no_empty] at isEmpty
    cases isEmpty
  reduce expected declared :=
    ⟨expected.move_eq_reduce weak accepted declared, weak.select_key accepted declared _⟩
  apart expected declared _ otherDeclared _ _ isBody :=
    expected.apart weak accepted declared otherDeclared isBody
  spend _ _ _ := Nat.le_refl 0
  unaccepted expected declared :=
    weak.acyclic _ (.tail' (expected.whole rfl rfl) declared)

/-! ## The small imperative language -/

/-- The grammar of the small imperative language is a weak precedence grammar. -/
theorem weakPrecedence_program : program.WeakPrecedence := by
  have checked : (∀ production ∈ program.grammar.productions,
        production.last? ≠ some production.head) ∧
      (∀ production ∈ program.grammar.productions, ∀ symbol ∈ production.body,
        production.body = [symbol] →
          program.grammar.nonTerminals.idxOf production.head <
            program.grammar.nonTerminals.idxOf symbol) ∧
      (program.grammar.productions.map Production.body).Nodup ∧
      program.relations.conflicts = [] ∧
      ∀ longer ∈ program.grammar.productions, ∀ shorter ∈ program.grammar.productions,
        ∀ ending ∈ longer.body.tails, ∀ symbol ∈ ending.head?, ending.tail = shorter.body →
          program.relations.shifts symbol shorter.head = false := by
    decide +kernel
  obtain ⟨notRecursive, ordered, nodup, conflictFree, separated⟩ := checked
  refine ⟨rfl, notRecursive, Grammar.unitAcyclic_of_order _ ordered, nodup, conflictFree, ?_⟩
  intro longer longerDeclared shorter shorterDeclared before symbol isBody
  refine separated longer longerDeclared shorter shorterDeclared (symbol :: shorter.body) ?_
    symbol rfl rfl
  exact (List.mem_tails _ _).mpr ⟨before, isBody.symm⟩

end Precedence.Parser
