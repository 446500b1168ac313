import Precedence.Proofs.Parser.Soundness
import Precedence.Proofs.Parser.Termination

/-!
# Plans

A plan of a parser tells at which places a symbol may be expected: what is on top of the stack, and
what follows the symbol. At a place of a terminal the parser reads it. At a place of a non-terminal
every body of it can be stacked, because its symbols are expected at places of their own or it is
the empty symbol, which is inserted; and once a body is stacked, it is reduced to its head.

A parser with a plan follows every parse tree, so it parses every sentence to its derivation.
-/

namespace Precedence.Parser

/-- Whether a symbol can come next where trees of some symbols are left to read before a symbol that
follows them. -/
def ComesNext (parser : Parser) (symbols : List String) (follow next : String) : Prop :=
  ∃ trees : List SyntaxTree, trees.map SyntaxTree.symbol = symbols ∧
    (∀ tree ∈ trees, tree.IsParseTree parser.grammar) ∧
    (trees.flatMap (SyntaxTree.frontier parser.grammar) ++ [follow]).head? = some next

/-- Where symbols may be expected, such that the parser does the right thing there. -/
structure Plan (parser : Parser) where
  /-- Whether a symbol may be expected with a symbol on top of the stack and one that follows. -/
  Place : String → String → String → Prop
  /-- How many empty symbols may have been inserted since an element was read when a symbol is on
  top of the stack. -/
  spent : String → Nat
  /-- The start symbol is expected on an empty stack before the end marker. -/
  start : Place parser.endMarker parser.start parser.endMarker
  /-- The empty symbol is not expected. -/
  present : ∀ {below symbol follow}, Place below symbol follow →
    parser.grammar.isEmptySymbol symbol = false
  /-- A symbol that cannot be expanded is read where it is expected. -/
  read : ∀ {below symbol follow}, Place below symbol follow →
    parser.grammar.isNonTerminal symbol = false → parser.move below symbol = .read
  /-- A symbol of a body is expected after the symbols before it, where the head is expected. -/
  child : ∀ {head below follow}, Place below head follow → ∀ {before symbol after},
    ⟨head, before ++ symbol :: after⟩ ∈ parser.grammar.productions →
      parser.grammar.isEmptySymbol symbol = false →
        ∀ {next}, parser.ComesNext after follow next →
          Place (before.getLast?.getD below) symbol next
  /-- An empty body is inserted where its head is expected, within the limit on empty symbols. -/
  insert : ∀ {head below follow}, Place below head follow → ∀ {empty},
    parser.grammar.emptySymbol = some empty →
      ⟨head, [empty]⟩ ∈ parser.grammar.productions →
        below ≠ parser.start ∧ parser.move below follow = .insert empty ∧
          (∀ limit ∈ parser.insertionLimit, spent below < limit) ∧ spent below < spent head
  /-- A body is reduced where its head is expected, and by its own production. -/
  reduce : ∀ {production below follow}, Place below production.head follow →
    production ∈ parser.grammar.productions →
      parser.move (production.body.getLast?.getD below) follow = .reduce ∧
        parser.select production.key below = some production
  /-- What is on top of the stack where a head is expected does not stand before its body in a
  longer body. -/
  apart : ∀ {production below follow}, Place below production.head follow →
    production ∈ parser.grammar.productions → ∀ other ∈ parser.grammar.productions,
      ∀ before symbol, other.body = before ++ symbol :: production.body → symbol ≠ below
  /-- A head may have spent as many empty symbols as the last symbol of its body. -/
  spend : ∀ {production below follow}, Place below production.head follow →
    production ∈ parser.grammar.productions →
      (∀ symbol ∈ production.body, parser.grammar.isEmptySymbol symbol = false) →
        spent (production.body.getLast?.getD below) ≤ spent production.head
  /-- The start symbol alone is no body of a symbol that stands for the whole input. -/
  unaccepted : ∀ {head}, Place parser.endMarker head parser.endMarker →
    ⟨head, [parser.start]⟩ ∉ parser.grammar.productions

namespace Plan

variable {parser : Parser} (plan : Plan parser) {σ : Type} [Supply σ]

/-- What holds where a symbol is expected on a stack, with what follows it. -/
structure Awaits (stack : List Element) (insertions : Nat) (symbol follow : String) : Prop where
  /-- Symbols of bodies are stacked. -/
  occurs : ∀ element ∈ stack, parser.grammar.Occurs element.kind
  /-- The symbol may be expected there. -/
  place : plan.Place (parser.topKind stack) symbol follow
  /-- No more empty symbols have been inserted than the top may have spent. -/
  within : insertions ≤ plan.spent (parser.topKind stack)

/-- Where the symbol of a tree is expected, the parser reads the frontier of the tree and stacks the
symbol, with the derivation of the tree. -/
def Follows (σ : Type) [Supply σ] (tree : SyntaxTree) : Prop :=
  ∀ {stack : List Element} {derivation : Derivation} {insertions : Nat}
    {lookahead next : Element} {input rest : σ} {elements : List Element},
    plan.Awaits stack insertions tree.symbol next.kind →
    Supply.Reads lookahead input elements next rest →
    elements.map Element.kind = tree.frontier parser.grammar →
    ∃ top count, top.kind = tree.symbol ∧ count ≤ plan.spent tree.symbol ∧
      parser.Leads ⟨stack, derivation, lookahead, insertions, input⟩ elements
        ⟨top :: stack, tree.derivation ++ derivation, next, count, rest⟩

/-- A leaf is read where it is expected. -/
theorem follows_leaf (accepted : parser.Accepted) {symbol : String}
    (unexpanded : parser.grammar.isNonTerminal symbol = false) :
    plan.Follows σ (.leaf symbol) := by
  intro stack derivation insertions lookahead next input rest elements awaits read isFrontier
  have present : parser.grammar.isEmptySymbol symbol = false := plan.present awaits.place
  rw [SyntaxTree.frontier_leaf, present] at isFrontier
  obtain ⟨element, rfl, isKind⟩ := List.map_eq_singleton_iff.mp isFrontier
  cases read with
  | read pulled others =>
    cases others
    have isMove : parser.move (parser.topKind stack) lookahead.kind = .read := by
      rw [isKind]
      exact plan.read awaits.place unexpanded
    have unaccepted : parser.accepts stack lookahead = false := by
      rw [Bool.eq_false_iff]
      intro isAccepted
      exact ne_endMarker_of_read accepted isMove (accepts_iff.mp isAccepted).2
    have leads := @leads_of_read σ parser _
      ⟨stack, derivation, lookahead, insertions, input⟩ _ _ unaccepted isMove pulled
    exact ⟨lookahead, 0, isKind, Nat.zero_le _, leads⟩

/-- The trees of the rest of a body without empty symbol are followed one after the other. -/
theorem leads_of_trees {trees : List SyntaxTree}
    (parsed : ∀ tree ∈ trees, tree.IsParseTree parser.grammar)
    (follows : ∀ tree ∈ trees, plan.Follows σ tree)
    (present : ∀ tree ∈ trees, parser.grammar.isEmptySymbol tree.symbol = false)
    {name : String} {stack tops : List Element} {derivation : Derivation} {insertions : Nat}
    {lookahead next : Element} {input rest : σ} {elements : List Element}
    (occurs : ∀ element ∈ stack, parser.grammar.Occurs element.kind)
    (place : plan.Place (parser.topKind stack) name next.kind)
    (within : insertions ≤ plan.spent (parser.topKind (tops ++ stack)))
    (declared : ⟨name, form tops ++ trees.map SyntaxTree.symbol⟩ ∈ parser.grammar.productions)
    (read : Supply.Reads lookahead input elements next rest)
    (isFrontier : elements.map Element.kind =
      trees.flatMap (SyntaxTree.frontier parser.grammar)) :
    ∃ body count, form body = form tops ++ trees.map SyntaxTree.symbol ∧
      count ≤ plan.spent (parser.topKind (body ++ stack)) ∧
      parser.Leads ⟨tops ++ stack, derivation, lookahead, insertions, input⟩ elements
        ⟨body ++ stack, SyntaxTree.derivationAll trees ++ derivation, next, count, rest⟩ := by
  induction trees generalizing tops derivation insertions lookahead input elements with
  | nil =>
    obtain rfl := List.map_eq_nil_iff.mp isFrontier
    cases read
    exact ⟨tops, insertions, by simp, within, .refl _⟩
  | cons tree trees ih =>
    have laterParsed : ∀ other ∈ trees, other.IsParseTree parser.grammar :=
      fun other held => parsed other (List.mem_cons_of_mem _ held)
    have laterFollows : ∀ other ∈ trees, plan.Follows σ other :=
      fun other held => follows other (List.mem_cons_of_mem _ held)
    have laterPresent : ∀ other ∈ trees, parser.grammar.isEmptySymbol other.symbol = false :=
      fun other held => present other (List.mem_cons_of_mem _ held)
    rw [List.flatMap_cons] at isFrontier
    obtain ⟨earlier, later, rfl, isEarlier, isLater⟩ := List.map_eq_append_iff.mp isFrontier
    obtain ⟨middle, between, readEarlier, readLater⟩ := read.split
    rw [List.map_cons] at declared
    have comesNext : parser.ComesNext (trees.map SyntaxTree.symbol) next.kind middle.kind := by
      refine ⟨trees, rfl, laterParsed, ?_⟩
      have first := congrArg (Option.map Element.kind) readLater.head?_eq
      rwa [← List.head?_map, List.map_append, isLater] at first
    have awaits : plan.Awaits (tops ++ stack) insertions tree.symbol middle.kind := by
      refine ⟨?_, ?_, within⟩
      · intro element held
        rcases List.mem_append.mp held with held | held
        · refine ⟨_, declared, List.mem_append_left _ ?_⟩
          exact List.mem_reverse.mpr (List.mem_map_of_mem held)
        · exact occurs element held
      · rw [topKind_append]
        exact plan.child place declared (present tree List.mem_cons_self) comesNext
    obtain ⟨top, count, isTop, topWithin, leads⟩ :=
      follows tree List.mem_cons_self awaits readEarlier isEarlier
    have isForm : form (top :: tops) ++ trees.map SyntaxTree.symbol =
        form tops ++ tree.symbol :: trees.map SyntaxTree.symbol := by
      rw [form_cons, isTop, List.append_assoc, List.singleton_append]
    obtain ⟨body, lastCount, isBody, bodyWithin, laterLeads⟩ :=
      ih laterParsed laterFollows laterPresent (isTop ▸ topWithin) (isForm ▸ declared) readLater
        isLater
    refine ⟨body, lastCount, isBody.trans isForm, bodyWithin, ?_⟩
    rw [SyntaxTree.derivationAll, List.append_assoc]
    exact leads.trans laterLeads

/-- The body of a production on top of the stack is reduced where the head is expected. -/
theorem leads_of_body (accepted : parser.Accepted) {production : Production}
    (declared : production ∈ parser.grammar.productions) {stack body : List Element}
    {derivation : Derivation} {next : Element} {count : Nat} {rest : σ}
    (occurs : ∀ element ∈ stack, parser.grammar.Occurs element.kind)
    (place : plan.Place (parser.topKind stack) production.head next.kind)
    (isBody : form body = production.body) :
    parser.Leads ⟨body ++ stack, derivation, next, count, rest⟩ []
      ⟨.symbol production.head :: stack, production :: derivation, next, count, rest⟩ := by
  have isForm : form (body ++ stack) = form stack ++ production.body := by
    rw [form_append, isBody]
  have bodyOccurs : ∀ element ∈ body ++ stack, parser.grammar.Occurs element.kind := by
    intro element held
    rcases List.mem_append.mp held with held | held
    · refine ⟨_, declared, isBody ▸ ?_⟩
      exact List.mem_reverse.mpr (List.mem_map_of_mem held)
    · exact occurs element held
  obtain ⟨isMove, selected⟩ := plan.reduce place declared
  rw [← isBody, ← topKind_append] at isMove
  have isBeneath : stack = (body ++ stack).drop production.body.length := by
    rw [← isBody, form, List.length_reverse, List.length_map, List.drop_left]
  have found := findHandle_complete accepted bodyOccurs declared isBeneath isForm selected
    fun other otherDeclared ends =>
      length_le_of_apart (plan.apart place declared other otherDeclared) (isForm ▸ ends)
  have unaccepted : parser.accepts (body ++ stack) next = false := by
    rw [Bool.eq_false_iff]
    intro isAccepted
    obtain ⟨isStart, isEnd⟩ := accepts_iff.mp isAccepted
    rw [isForm, List.append_eq_singleton_iff] at isStart
    rcases isStart with ⟨isEmpty, alone⟩ | ⟨_, none⟩
    · have isEmpty : stack = [] := by simpa [form] using isEmpty
      rw [isEmpty, isEnd] at place
      refine plan.unaccepted place ?_
      rw [← alone]
      exact declared
    · exact accepted.body_ne_nil production declared none
  exact @leads_of_reduce σ parser _ ⟨body ++ stack, derivation, next, count, rest⟩ _ _ unaccepted
    isMove found

/-- The empty symbol is inserted where the head of an empty body is expected, and nothing is read
for it. -/
theorem leads_of_hollow (accepted : parser.Accepted)
    (unexpanded : ∀ empty ∈ parser.grammar.emptySymbol,
      parser.grammar.isNonTerminal empty = false)
    {child : SyntaxTree} (isEmpty : parser.grammar.emptySymbol = some child.symbol)
    (parsed : child.IsParseTree parser.grammar) {name : String}
    (declared : ⟨name, [child.symbol]⟩ ∈ parser.grammar.productions) {stack : List Element}
    {derivation : Derivation} {insertions : Nat} {lookahead next : Element} {input rest : σ}
    {elements : List Element} (awaits : plan.Awaits stack insertions name next.kind)
    (read : Supply.Reads lookahead input elements next rest)
    (isFrontier : elements.map Element.kind = child.frontier parser.grammar) :
    insertions + 1 ≤ plan.spent name ∧
      parser.Leads ⟨stack, derivation, lookahead, insertions, input⟩ elements
        ⟨.symbol child.symbol :: stack, child.derivation ++ derivation, next, insertions + 1,
          rest⟩ := by
  have isLeaf := parsed.eq_leaf accepted.toWellFormed (unexpanded _ isEmpty)
  have nothing : child.frontier parser.grammar = [] := by
    rw [isLeaf, SyntaxTree.frontier_leaf, if_pos (by simp [Grammar.isEmptySymbol, isEmpty])]
  rw [nothing] at isFrontier
  obtain rfl := List.map_eq_nil_iff.mp isFrontier
  cases read
  obtain ⟨different, isMove, allowed, fewer⟩ := plan.insert awaits.place isEmpty declared
  have inserted := @leads_of_insert σ parser _
    ⟨stack, derivation, lookahead, insertions, input⟩ _ (not_accepts_of_topKind different) isMove
    fun limit limited => Nat.lt_of_le_of_lt awaits.within (allowed limit limited)
  refine ⟨Nat.lt_of_le_of_lt awaits.within fewer, ?_⟩
  rw [isLeaf]
  exact inserted

/-- A tree is followed when its children are: its body is stacked and reduced. -/
theorem follows_node (accepted : parser.Accepted)
    (unexpanded : ∀ empty ∈ parser.grammar.emptySymbol,
      parser.grammar.isNonTerminal empty = false)
    {name : String} {children : List SyntaxTree}
    (declared : ⟨name, children.map SyntaxTree.symbol⟩ ∈ parser.grammar.productions)
    (parsed : ∀ child ∈ children, child.IsParseTree parser.grammar)
    (follows : ∀ child ∈ children, plan.Follows σ child) :
    plan.Follows σ (.node name none children) := by
  intro stack derivation insertions lookahead next input rest elements awaits read isFrontier
  have inner := SyntaxTree.IsParseTree.children_ne_nil accepted.toWellFormed declared
  rw [SyntaxTree.frontier_node _ _ _ inner] at isFrontier
  have place : plan.Place (parser.topKind stack) name next.kind := awaits.place
  suffices stacked : ∃ body count, form body = children.map SyntaxTree.symbol ∧
      count ≤ plan.spent name ∧
      parser.Leads ⟨stack, derivation, lookahead, insertions, input⟩ elements
        ⟨body ++ stack, SyntaxTree.derivationAll children ++ derivation, next, count, rest⟩ by
    obtain ⟨body, count, isBody, within, leads⟩ := stacked
    have reduced := leads.trans
      (plan.leads_of_body accepted declared awaits.occurs place isBody)
    rw [List.append_nil] at reduced
    rw [SyntaxTree.derivation_node _ _ inner]
    exact ⟨_, count, rfl, within, reduced⟩
  by_cases hollow : ∃ child ∈ children, parser.grammar.isEmptySymbol child.symbol = true
  · -- The body is the empty symbol alone, and nothing is read for it.
    obtain ⟨child, held, isEmpty⟩ := hollow
    have isEmpty : parser.grammar.emptySymbol = some child.symbol := by
      simpa [Grammar.isEmptySymbol] using isEmpty
    have alone : children.map SyntaxTree.symbol = [child.symbol] :=
      accepted.empty_alone _ isEmpty _ declared (List.mem_map_of_mem held)
    obtain ⟨only, rfl, _⟩ := List.map_eq_singleton_iff.mp alone
    obtain rfl := List.mem_singleton.mp held
    rw [List.flatMap_singleton] at isFrontier
    exact ⟨[.symbol child.symbol], insertions + 1, rfl, plan.leads_of_hollow accepted unexpanded
      isEmpty (parsed child List.mem_cons_self) declared awaits read isFrontier⟩
  · -- No symbol of the body is the empty symbol.
    have present : ∀ child ∈ children, parser.grammar.isEmptySymbol child.symbol = false :=
      fun child held => Bool.eq_false_iff.mpr fun isEmpty => hollow ⟨child, held, isEmpty⟩
    have bodyPresent : ∀ symbol ∈ children.map SyntaxTree.symbol,
        parser.grammar.isEmptySymbol symbol = false := by
      intro symbol held
      obtain ⟨child, isChild, rfl⟩ := List.mem_map.mp held
      exact present child isChild
    have opened : (⟨name, form [] ++ children.map SyntaxTree.symbol⟩ : Production) ∈
        parser.grammar.productions := declared
    obtain ⟨body, count, isBody, within, leads⟩ :=
      plan.leads_of_trees parsed follows present awaits.occurs place awaits.within opened read
        isFrontier
    refine ⟨body, count, isBody, Nat.le_trans within ?_, leads⟩
    rw [topKind_append, isBody]
    exact plan.spend place declared bodyPresent

/-- Every parse tree is followed. -/
theorem follows_of_parsed (accepted : parser.Accepted)
    (unexpanded : ∀ empty ∈ parser.grammar.emptySymbol,
      parser.grammar.isNonTerminal empty = false)
    {tree : SyntaxTree} (parsed : tree.IsParseTree parser.grammar) : plan.Follows σ tree := by
  induction parsed with
  | terminal bare => exact plan.follows_leaf accepted bare
  | expanded declared parsed ih =>
    exact plan.follows_node accepted unexpanded declared parsed ih

/-- An input whose kinds have a derivation is parsed to it. -/
theorem parse_eq_of_derives (plan : Plan parser) (accepted : parser.Accepted)
    (unexpanded : ∀ empty ∈ parser.grammar.emptySymbol,
      parser.grammar.isNonTerminal empty = false)
    (acyclic : parser.grammar.UnitAcyclic)
    (limited : parser.insertionLimit = some parser.grammar.productions.length)
    {derivation : Derivation} {size : Nat} {input rest final : σ} {lookahead last : Element}
    {elements : List Element}
    (derives : parser.grammar.Derives parser.start derivation (elements.map Element.kind))
    (pulled : Supply.next input = (.ok lookahead, rest))
    (read : Supply.Reads lookahead rest elements last final)
    (isEnd : last.kind = parser.endMarker) (fits : elements.length ≤ size) :
    parser.parse size input = (.ok derivation, final) := by
  obtain ⟨leaves, derived, terminal, isWord⟩ := derives
  obtain ⟨tree, isSymbol, parsed, rfl, rfl⟩ :=
    SyntaxTree.exists_tree_of_derivation accepted.toWellFormed derived terminal
  have awaits : plan.Awaits [] 0 tree.symbol last.kind := by
    refine ⟨List.forall_mem_nil _, ?_, Nat.zero_le _⟩
    rw [isSymbol, isEnd]
    exact plan.start
  obtain ⟨top, count, isTop, _, leads⟩ :=
    @follows_of_parsed parser plan σ _ accepted unexpanded tree parsed [] [] 0 lookahead last rest
      final elements awaits read isWord.symm
  have isAccepted : parser.accepts [top] last = true := by
    rw [accepts_iff, form_cons, isTop, isSymbol]
    exact ⟨rfl, isEnd⟩
  rw [List.append_nil] at leads
  exact parse_eq_of_leads accepted acyclic limited pulled leads isAccepted fits

/-- Symbols without the end marker and the empty symbol are parsed to a derivation exactly when it
is one of theirs. -/
theorem parse_eq_ok_iff (plan : Plan parser) (accepted : parser.Accepted)
    (unexpanded : ∀ empty ∈ parser.grammar.emptySymbol,
      parser.grammar.isNonTerminal empty = false)
    (acyclic : parser.grammar.UnitAcyclic)
    (limited : parser.insertionLimit = some parser.grammar.productions.length)
    {word : List String} (unended : parser.endMarker ∉ word)
    (present : ∀ symbol ∈ word, parser.grammar.isEmptySymbol symbol = false)
    {derivation : Derivation} :
    (parser.parse word.length (SymbolSupply.mk word parser.endMarker)).1 = .ok derivation ↔
      parser.grammar.Derives parser.start derivation word := by
  constructor
  · intro parsed
    have derives := derives_of_parse accepted unexpanded unended parsed
    have whole : parser.grammar.withoutEmpty word = word :=
      List.filter_eq_self.mpr fun symbol held => by simp [present symbol held]
    rwa [whole] at derives
  · intro derives
    obtain ⟨lookahead, rest, pulled, read⟩ := Supply.reads_symbols word parser.endMarker
    rw [← Supply.map_kind_symbol word] at derives
    have parsed := plan.parse_eq_of_derives accepted unexpanded acyclic limited derives pulled read
      rfl (Nat.le_of_eq (List.length_map _))
    exact congrArg Prod.fst parsed

end Plan

end Precedence.Parser
