import Mathlib.Data.List.Basic
import Mathlib.Data.List.Induction
import Precedence.Proofs.Grammar.Accepted

/-!
# Grammars and their declarations

What a grammar looks up and lists, compared with a search through its productions as they were
declared. The order of first occurrence is said by positions: each item of a listing first stands
in the source before the next one does. Both listings of symbols are in that order, they have no
symbol in common, and with the empty symbol they hold every symbol of every production.
-/

namespace Precedence

variable {α : Type} [DecidableEq α]

/-! ## The order of first occurrence -/

/-- The items of a listing stand in a source, and in the order in which they first stand there. -/
structure ByFirstOccurrence (source items : List α) : Prop where
  /-- Every item stands in the source. -/
  subset : items ⊆ source
  /-- An item that is listed earlier first stands in the source earlier. -/
  increasing : items.Pairwise fun earlier later => source.idxOf earlier < source.idxOf later

/-- One more item is entered into the first occurrences unless it is among them. -/
theorem distinct_concat (items : List α) (item : α) :
    distinct (items ++ [item]) = addMissing (distinct items) item := by
  rw [distinct, distinct, List.foldl_append, List.foldl_cons, List.foldl_nil]

/-- The first occurrences are in the order of first occurrence. -/
theorem byFirstOccurrence_distinct (source : List α) :
    ByFirstOccurrence source (distinct source) := by
  refine ⟨fun item held => mem_distinct.mp held, ?_⟩
  induction source using List.reverseRecOn with
  | nil => exact List.Pairwise.nil
  | append_singleton source item ih =>
    -- What has been listed keeps its position when the source grows at its end.
    have kept : (distinct source).Pairwise fun earlier later =>
        (source ++ [item]).idxOf earlier < (source ++ [item]).idxOf later := by
      refine ih.imp_of_mem fun {earlier later} listed laterListed before => ?_
      rw [List.idxOf_append_of_mem (mem_distinct.mp listed),
        List.idxOf_append_of_mem (mem_distinct.mp laterListed)]
      exact before
    rw [distinct_concat, addMissing]
    by_cases known : item ∈ distinct source
    · rw [if_pos known]
      exact kept
    · rw [if_neg known, List.pairwise_append]
      refine ⟨kept, List.pairwise_singleton _ _, ?_⟩
      intro earlier listed later isItem
      rw [List.mem_singleton.mp isItem]
      have missing : item ∉ source := fun held => known (mem_distinct.mpr held)
      have earlierFirst : source.idxOf earlier < source.length :=
        List.idxOf_lt_length_of_mem (mem_distinct.mp listed)
      rw [List.idxOf_append_of_mem (mem_distinct.mp listed),
        List.idxOf_append_of_notMem missing]
      omega

/-- What first stands earlier in the items that a filter keeps than a kept item also first stands
earlier in the whole list. -/
theorem idxOf_lt_of_filter {kept : α → Bool} {items : List α} {left right : α}
    (rightKept : kept right = true)
    (before : (items.filter kept).idxOf left < (items.filter kept).idxOf right) :
    items.idxOf left < items.idxOf right := by
  induction items with
  | nil => simp at before
  | cons item items ih =>
    by_cases isLeft : item = left
    · subst isLeft
      have different : item ≠ right := by
        rintro rfl
        exact Nat.lt_irrefl _ before
      rw [List.idxOf_cons_self, List.idxOf_cons_ne _ different]
      omega
    · by_cases isKept : kept item = true
      · rw [List.filter_cons_of_pos isKept, List.idxOf_cons_ne _ isLeft] at before
        by_cases isRight : item = right
        · subst isRight
          rw [List.idxOf_cons_self] at before
          omega
        · rw [List.idxOf_cons_ne _ isRight] at before
          rw [List.idxOf_cons_ne _ isLeft, List.idxOf_cons_ne _ isRight]
          have earlier := ih (by omega)
          omega
      · have notRight : item ≠ right := by
          rintro rfl
          exact isKept rightKept
        rw [List.filter_cons_of_neg isKept] at before
        rw [List.idxOf_cons_ne _ isLeft, List.idxOf_cons_ne _ notRight]
        have earlier := ih before
        omega

/-- The first occurrences of what a filter keeps are in the order of the whole list. -/
theorem byFirstOccurrence_distinct_filter (kept : α → Bool) (source : List α) :
    ByFirstOccurrence source (distinct (source.filter kept)) := by
  obtain ⟨subset, increasing⟩ := byFirstOccurrence_distinct (source.filter kept)
  refine ⟨fun item listed => (List.mem_filter.mp (subset listed)).1, ?_⟩
  refine increasing.imp_of_mem fun {earlier later} _ laterListed before => ?_
  have laterKept : kept later = true := (List.mem_filter.mp (subset laterListed)).2
  exact idxOf_lt_of_filter laterKept before

namespace Grammar

/-! ## Look-ups and listings -/

namespace WellFormed

variable {grammar : Grammar}

/-- The non-terminals are listed in the order in which they first head a production. -/
theorem byFirstOccurrence_nonTerminals (wellFormed : grammar.WellFormed) :
    ByFirstOccurrence (grammar.productions.map Production.head) grammar.nonTerminals := by
  rw [wellFormed.indexed]
  exact byFirstOccurrence_distinct _

/-- The terminals are listed in the order in which they first stand in a body. -/
theorem byFirstOccurrence_terminals (wellFormed : grammar.WellFormed) :
    ByFirstOccurrence (grammar.productions.flatMap Production.body) grammar.terminals := by
  rw [wellFormed.indexed]
  exact byFirstOccurrence_distinct_filter _ _

/-- No symbol is listed twice. -/
theorem nodup_listings (wellFormed : grammar.WellFormed) :
    grammar.nonTerminals.Nodup ∧ grammar.terminals.Nodup := by
  rw [wellFormed.indexed]
  exact ⟨nodup_distinct _, nodup_distinct _⟩

/-- A non-terminal is no terminal. -/
theorem disjoint_listings (wellFormed : grammar.WellFormed) :
    grammar.nonTerminals.Disjoint grammar.terminals := by
  intro symbol nonTerminal terminal
  have unexpanded := (wellFormed.mem_terminals_iff.mp terminal).2.1
  rw [wellFormed.mem_nonTerminals_iff.mp nonTerminal] at unexpanded
  cases unexpanded

end WellFormed

/-- A grammar that can be made looks up exactly the declared productions, in declaration order, and
knows exactly the declared heads. Its listings of symbols have no repetition, are in the order of
first occurrence, have no symbol in common and, with the empty symbol, hold every symbol of every
production; a symbol of a body is a terminal when it is neither a head nor the empty symbol. -/
theorem agrees_with_declaration {productions : List Production} {emptySymbol : Option String}
    {grammar : Grammar} (made : ofProductions productions emptySymbol = .ok grammar) :
    (∀ key, grammar.productionsWithHead key = productions.filter (·.head = key) ∧
      grammar.productionsWithBody key = productions.filter (·.key = key) ∧
      (grammar.isNonTerminal key = true ↔ ∃ production ∈ productions, production.head = key)) ∧
    (grammar.nonTerminals.Nodup ∧
      ByFirstOccurrence (productions.map Production.head) grammar.nonTerminals) ∧
    (grammar.terminals.Nodup ∧
      ByFirstOccurrence (productions.flatMap Production.body) grammar.terminals) ∧
    grammar.nonTerminals.Disjoint grammar.terminals ∧
    ∀ production ∈ productions, production.head ∈ grammar.nonTerminals ∧
      ∀ symbol ∈ production.body,
        (symbol ∈ grammar.nonTerminals ∨ symbol ∈ grammar.terminals ∨
          emptySymbol = some symbol) ∧
        (symbol ∈ grammar.terminals ↔
          (¬ ∃ other ∈ productions, other.head = symbol) ∧ emptySymbol ≠ some symbol) := by
  obtain ⟨wellFormed, kept, declaredEmpty⟩ := ofProductions_ok made
  have heads (symbol : String) : grammar.isNonTerminal symbol = true ↔
      ∃ production ∈ productions, production.head = symbol := by
    rw [wellFormed.isNonTerminal_iff, kept]
  have nodup := wellFormed.nodup_listings
  have nonTerminalOrder := wellFormed.byFirstOccurrence_nonTerminals
  have terminalOrder := wellFormed.byFirstOccurrence_terminals
  rw [kept] at nonTerminalOrder terminalOrder
  refine ⟨fun key => ⟨?_, ?_, heads key⟩, ⟨nodup.1, nonTerminalOrder⟩, ⟨nodup.2, terminalOrder⟩,
    wellFormed.disjoint_listings, fun production declared => ⟨?_, fun symbol inBody => ?_⟩⟩
  · rw [wellFormed.productionsWithHead_eq, kept]
  · rw [wellFormed.productionsWithBody_eq, kept]
  · exact wellFormed.mem_nonTerminals_iff.mpr ((heads _).mpr ⟨production, declared, rfl⟩)
  · have occurs : grammar.Occurs symbol := ⟨production, kept ▸ declared, inBody⟩
    have listed := wellFormed.mem_symbols_of_occurs occurs
    simp only [symbols, List.mem_append, Option.mem_toList, declaredEmpty] at listed
    refine ⟨or_assoc.mp listed, ?_⟩
    rw [wellFormed.mem_terminals_iff, ← heads, declaredEmpty, Bool.not_eq_true]
    exact and_iff_right occurs

/-- A production declared twice is found twice, a head that stands in a body before it heads a
production is listed where it heads one, and the empty symbol may be a head. -/
theorem agrees_with_declaration_repeated :
    let productions : List Production := [⟨"S", ["A", "b"]⟩, ⟨"A", ["e"]⟩, ⟨"e", ["c"]⟩,
      ⟨"S", ["A", "b"]⟩, ⟨"A", ["b", "d", "b"]⟩]
    let grammar := index productions (some "e")
    ofProductions productions (some "e") = .ok grammar ∧
      grammar.productionsWithHead "S" = [⟨"S", ["A", "b"]⟩, ⟨"S", ["A", "b"]⟩] ∧
      grammar.productionsWithBody "e" = [⟨"A", ["e"]⟩] ∧
      grammar.nonTerminals = ["S", "A", "e"] ∧ grammar.terminals = ["b", "c", "d"] ∧
      ByFirstOccurrence ["S", "A", "e", "S", "A"] grammar.nonTerminals ∧
      ByFirstOccurrence ["A", "b", "e", "c", "A", "b", "b", "d", "b"] grammar.terminals := by
  intro productions grammar
  have made : ofProductions productions (some "e") = .ok grammar := rfl
  obtain ⟨lookups, nonTerminals, terminals, _⟩ := agrees_with_declaration made
  refine ⟨made, (lookups "S").1.trans ?_, (lookups "e").2.1.trans ?_, ?_, ?_, nonTerminals.2,
    terminals.2⟩ <;> decide +kernel

end Grammar

end Precedence
