import Precedence.Grammar.Ruleset
import Precedence.Proofs.Text.Words

/-!
# Accepted grammars

What the checks of a grammar promise. The look-ups of a well-formed grammar find what a search
through its productions finds, no body is empty, and the empty symbol stands alone in its body.
The grammar of an accepted ruleset has words for the symbols of its bodies besides, its start
symbol heads a production, and its end marker is no symbol of it.
-/

namespace Precedence

open Text (IsWord joinWords)

namespace Grammar

/-- What holds of every grammar made from a list of productions. -/
structure WellFormed (grammar : Grammar) : Prop where
  /-- The look-ups are those of the productions. -/
  indexed : grammar = index grammar.productions grammar.emptySymbol
  /-- No body is empty. -/
  body_ne_nil : ∀ production ∈ grammar.productions, production.body ≠ []
  /-- The empty symbol stands beside no other symbol. -/
  empty_alone : ∀ empty ∈ grammar.emptySymbol, ∀ production ∈ grammar.productions,
    empty ∈ production.body → production.body = [empty]

/-- What holds of the grammar of an accepted ruleset, with its start symbol and end marker. -/
structure Accepted (grammar : Grammar) (start endMarker : String) : Prop
    extends WellFormed grammar where
  /-- The symbols of bodies are words. -/
  isWord_of_mem_body : ∀ production ∈ grammar.productions, ∀ symbol ∈ production.body,
    IsWord symbol
  /-- The start symbol heads a production. -/
  start_isNonTerminal : grammar.isNonTerminal start = true
  /-- The end marker is no symbol of the grammar. -/
  endMarker_not_mem : endMarker ∉ grammar.symbols

/-- A symbol stands in the body of a production. -/
def Occurs (grammar : Grammar) (symbol : String) : Prop :=
  ∃ production ∈ grammar.productions, symbol ∈ production.body

/-! ## The checks -/

/-- A list of productions without fault has no empty body and no misplaced empty symbol. -/
theorem checkProductions_ok {emptySymbol : Option String} {productions : List Production}
    (checked : checkProductions emptySymbol productions = .ok ()) :
    ∀ production ∈ productions, production.body ≠ [] ∧
      ∀ empty ∈ emptySymbol, empty ∈ production.body → production.body = [empty] := by
  induction productions with
  | nil => exact List.forall_mem_nil _
  | cons first others ih =>
    rw [checkProductions] at checked
    split at checked
    · cases checked
    rename_i nonempty
    split at checked
    · cases checked
    rename_i placed
    intro production held
    rcases List.mem_cons.mp held with rfl | held
    · refine ⟨fun none => nonempty (by simp [none]), ?_⟩
      intro empty declared inBody
      have short : ¬ 1 < production.body.length := fun long =>
        placed ⟨long, empty, declared, inBody⟩
      obtain ⟨only, isOnly⟩ : ∃ only, production.body = [only] := by
        apply List.length_eq_one_iff.mp
        have := List.length_pos_of_mem inBody
        omega
      rw [isOnly, List.mem_singleton] at inBody
      rw [isOnly, inBody]
    · exact ih checked production held

/-- A grammar made from productions is well formed and keeps them. -/
theorem ofProductions_ok {productions : List Production} {emptySymbol : Option String}
    {grammar : Grammar} (made : ofProductions productions emptySymbol = .ok grammar) :
    grammar.WellFormed ∧ grammar.productions = productions ∧
      grammar.emptySymbol = emptySymbol := by
  rw [ofProductions] at made
  split at made
  · cases made
  cases checked : checkProductions emptySymbol productions with
  | error error => simp [checked, Except.map] at made
  | ok checks =>
    simp only [checked, Except.map, Except.ok.injEq] at made
    subst made
    have sound := checkProductions_ok checked
    exact ⟨⟨rfl, fun production held => (sound production held).1,
      fun empty declared production held => (sound production held).2 empty declared⟩, rfl, rfl⟩

/-- The grammar of an accepted ruleset is accepted with its start symbol and end marker. -/
theorem accepted_of_ruleset {ruleset : Ruleset} {grammar : Grammar}
    (made : ruleset.grammar = .ok grammar) :
    grammar.Accepted ruleset.start ruleset.endMarker ∧
      grammar.productions = ruleset.productions ∧ grammar.emptySymbol = ruleset.empty := by
  rw [Ruleset.grammar] at made
  split at made
  · cases made
  rename_i candidate indexed
  split at made
  · cases made
  rename_i startHeads
  split at made
  · cases made
  rename_i fresh
  cases made
  obtain ⟨wellFormed, kept, declared⟩ := ofProductions_ok indexed
  refine ⟨{ wellFormed with
    isWord_of_mem_body := ?_
    start_isNonTerminal := by simpa using startHeads
    endMarker_not_mem := fresh }, kept, declared⟩
  intro production held symbol inBody
  rw [kept, Ruleset.productions] at held
  obtain ⟨rule, _, held⟩ := List.mem_flatMap.mp held
  obtain ⟨body, _, rfl⟩ := List.mem_map.mp held
  exact Text.isWord_of_mem_splitWords inBody

namespace WellFormed

variable {grammar : Grammar}

/-! ## Look-ups -/

/-- The non-terminals are the heads. -/
theorem isNonTerminal_iff (wellFormed : grammar.WellFormed) {symbol : String} :
    grammar.isNonTerminal symbol = true ↔
      ∃ production ∈ grammar.productions, production.head = symbol := by
  rw [wellFormed.indexed, isNonTerminal, index, Groups.contains_ofProductions]
  simp

/-- A look-up by head finds the productions with the head, in order. -/
theorem productionsWithHead_eq (wellFormed : grammar.WellFormed) (head : String) :
    grammar.productionsWithHead head = grammar.productions.filter (·.head = head) := by
  rw [wellFormed.indexed, productionsWithHead, index, Groups.find_ofProductions]

/-- A look-up by body finds the productions whose body has the key, in order. -/
theorem productionsWithBody_eq (wellFormed : grammar.WellFormed) (key : String) :
    grammar.productionsWithBody key = grammar.productions.filter (·.key = key) := by
  rw [wellFormed.indexed, productionsWithBody, index, Groups.find_ofProductions]

/-- The non-terminals are listed. -/
theorem mem_nonTerminals_iff (wellFormed : grammar.WellFormed) {symbol : String} :
    symbol ∈ grammar.nonTerminals ↔ grammar.isNonTerminal symbol = true := by
  rw [wellFormed.isNonTerminal_iff, wellFormed.indexed]
  simp [index, mem_distinct]

/-- The terminals are the symbols of bodies that are neither heads nor the empty symbol. -/
theorem mem_terminals_iff (wellFormed : grammar.WellFormed) {symbol : String} :
    symbol ∈ grammar.terminals ↔ grammar.Occurs symbol ∧
      grammar.isNonTerminal symbol = false ∧ grammar.emptySymbol ≠ some symbol := by
  rw [Occurs, wellFormed.indexed]
  simp [index, mem_distinct, isNonTerminal, List.mem_flatMap]

/-- The head of a production is a non-terminal. -/
theorem isNonTerminal_head (wellFormed : grammar.WellFormed) {production : Production}
    (held : production ∈ grammar.productions) : grammar.isNonTerminal production.head = true :=
  wellFormed.isNonTerminal_iff.mpr ⟨production, held, rfl⟩

/-- A symbol of a body that cannot be expanded is a terminal or the empty symbol. -/
theorem mem_terminals_or_empty (wellFormed : grammar.WellFormed) {symbol : String}
    (occurs : grammar.Occurs symbol) (unexpanded : grammar.isNonTerminal symbol = false) :
    symbol ∈ grammar.terminals ∨ grammar.emptySymbol = some symbol := by
  by_cases empty : grammar.emptySymbol = some symbol
  · exact Or.inr empty
  · exact Or.inl (wellFormed.mem_terminals_iff.mpr ⟨occurs, unexpanded, empty⟩)

/-- A symbol of a body is a symbol of the grammar. -/
theorem mem_symbols_of_occurs (wellFormed : grammar.WellFormed) {symbol : String}
    (occurs : grammar.Occurs symbol) : symbol ∈ grammar.symbols := by
  simp only [symbols, List.mem_append]
  cases nonTerminal : grammar.isNonTerminal symbol with
  | true => exact Or.inl (Or.inl (wellFormed.mem_nonTerminals_iff.mpr nonTerminal))
  | false =>
    rcases wellFormed.mem_terminals_or_empty occurs nonTerminal with terminal | empty
    · exact Or.inl (Or.inr terminal)
    · exact Or.inr (by simp [empty])

/-- A non-terminal is a symbol of the grammar. -/
theorem mem_symbols_of_isNonTerminal (wellFormed : grammar.WellFormed) {symbol : String}
    (nonTerminal : grammar.isNonTerminal symbol = true) : symbol ∈ grammar.symbols := by
  simp only [symbols, List.mem_append]
  exact Or.inl (Or.inl (wellFormed.mem_nonTerminals_iff.mpr nonTerminal))

end WellFormed

namespace Accepted

variable {grammar : Grammar} {start endMarker : String}

/-- A symbol that stands in a body is a word. -/
theorem isWord_of_occurs (accepted : grammar.Accepted start endMarker) {symbol : String}
    (occurs : grammar.Occurs symbol) : IsWord symbol := by
  obtain ⟨production, held, inBody⟩ := occurs
  exact accepted.isWord_of_mem_body production held symbol inBody

/-- A symbol of the grammar is not the end marker. -/
theorem ne_endMarker_of_mem_symbols (accepted : grammar.Accepted start endMarker)
    {symbol : String} (listed : symbol ∈ grammar.symbols) : symbol ≠ endMarker := by
  rintro rfl
  exact accepted.endMarker_not_mem listed

/-- A symbol that stands in a body is not the end marker. -/
theorem ne_endMarker_of_occurs (accepted : grammar.Accepted start endMarker) {symbol : String}
    (occurs : grammar.Occurs symbol) : symbol ≠ endMarker :=
  accepted.ne_endMarker_of_mem_symbols (accepted.mem_symbols_of_occurs occurs)

/-- A non-terminal is not the end marker. -/
theorem ne_endMarker_of_isNonTerminal (accepted : grammar.Accepted start endMarker)
    {symbol : String} (nonTerminal : grammar.isNonTerminal symbol = true) : symbol ≠ endMarker :=
  accepted.ne_endMarker_of_mem_symbols (accepted.mem_symbols_of_isNonTerminal nonTerminal)

/-- Symbols that stand in bodies are the body of a production exactly when they have its key. -/
theorem joinWords_eq_key_iff (accepted : grammar.Accepted start endMarker)
    {production : Production} (held : production ∈ grammar.productions) {symbols : List String}
    (occur : ∀ symbol ∈ symbols, grammar.Occurs symbol) :
    joinWords symbols = production.key ↔ symbols = production.body :=
  Text.joinWords_inj (fun symbol inBody => accepted.isWord_of_occurs (occur symbol inBody))
    (accepted.isWord_of_mem_body production held)

end Accepted

end Grammar

end Precedence
