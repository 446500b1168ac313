import Mathlib.Data.List.Chain
import Precedence.Grammar.Bundled
import Precedence.Grammar.Derivation
import Precedence.Proofs.Relations.Facts

/-!
# Precedence in sentential forms

In a form of a rightmost derivation nothing before the last symbol that can be expanded has been
expanded yet. So each symbol up to there stands after one that has a neighbour beginning with it,
and what comes after that last symbol begins a neighbour of a symbol ending with it. One step of a
derivation keeps this. The relations follow edges in the same way, except that an edge set leaves
out the symbol itself: a symbol that ends a body of its own may lack a relation to what comes after
it.
-/

namespace Precedence

/-- Sentences of any number of `a` and a `b`, with a production that ends with its own head. -/
def Ruleset.rightRecursive : Ruleset where
  name := none
  start := "S"
  endMarker := "$"
  empty := none
  rules := [⟨"S", ["a S", "b"]⟩]

namespace Grammar

/-- A symbol may come right after another one where nothing has been expanded yet: a neighbour of
the other one begins with it, or the start symbol does and the other one is the end marker. -/
def Precedes (grammar : Grammar) (start endMarker x z : String) : Prop :=
  (∃ y, grammar.Adjacent x y ∧ Relation.ReflTransGen (grammar.EdgeStep .left) y z) ∨
    x = endMarker ∧ Relation.ReflTransGen (grammar.EdgeStep .left) start z

/-- A symbol may come right after another one: the other one ends a symbol that has a neighbour
beginning with it, or it is the end marker and the other one ends the start symbol. -/
def Follows (grammar : Grammar) (start endMarker z w : String) : Prop :=
  (∃ x y, grammar.Adjacent x y ∧ Relation.ReflTransGen (grammar.EdgeStep .right) x z ∧
      Relation.ReflTransGen (grammar.EdgeStep .left) y w) ∨
    w = endMarker ∧ Relation.ReflTransGen (grammar.EdgeStep .right) start z

/-- How a symbol that can be expanded stands in a form. -/
structure Situated (grammar : Grammar) (start endMarker : String) (before : List String)
    (symbol : String) (after : List String) : Prop where
  /-- Each symbol up to this one may come after the symbol before it. -/
  precedes : List.IsChain (grammar.Precedes start endMarker) (endMarker :: before ++ [symbol])
  /-- What comes after the symbol may do so. -/
  follows : grammar.Follows start endMarker symbol (after.head?.getD endMarker)

variable {grammar : Grammar} {start endMarker : String}

/-! ## One step of a derivation -/

/-- What may come after a symbol may be replaced by what begins it. -/
theorem Precedes.first {x y z : String} (precedes : grammar.Precedes start endMarker x y)
    (stepped : grammar.EdgeStep .left y z) : grammar.Precedes start endMarker x z := by
  rcases precedes with ⟨neighbour, adjacent, path⟩ | ⟨isEnd, path⟩
  · exact Or.inl ⟨neighbour, adjacent, path.tail stepped⟩
  · exact Or.inr ⟨isEnd, path.tail stepped⟩

/-- What may come after a symbol may come after what ends it. -/
theorem Follows.last {y z w : String} (follows : grammar.Follows start endMarker y w)
    (stepped : grammar.EdgeStep .right y z) : grammar.Follows start endMarker z w := by
  rcases follows with ⟨x, neighbour, adjacent, path, begins⟩ | ⟨isEnd, path⟩
  · exact Or.inl ⟨x, neighbour, adjacent, path.tail stepped, begins⟩
  · exact Or.inr ⟨isEnd, path.tail stepped⟩

/-- What may come after a symbol of the grammar where nothing has been expanded yet may come after
it. -/
theorem Precedes.follows {x w : String} (precedes : grammar.Precedes start endMarker x w)
    (inner : x ≠ endMarker) : grammar.Follows start endMarker x w := by
  rcases precedes with ⟨neighbour, adjacent, path⟩ | ⟨isEnd, _⟩
  · exact Or.inl ⟨x, neighbour, adjacent, .refl, path⟩
  · exact absurd isEnd inner

/-- A body may stand in place of its head. -/
theorem Situated.body {production : Production} {before after : List String}
    (situated : grammar.Situated start endMarker before production.head after)
    (declared : production ∈ grammar.productions) :
    List.IsChain (grammar.Precedes start endMarker) (endMarker :: before ++ production.body) := by
  refine .append situated.precedes.left_of_append ?_ ?_
  · rw [List.isChain_iff_forall_rel_of_append_cons_cons]
    intro x y front back isBody
    exact Or.inl ⟨y, ⟨production, declared, front, back, isBody⟩, .refl⟩
  · intro x isLast y isFirst
    have precedes : grammar.Precedes start endMarker x production.head :=
      (List.isChain_append.mp situated.precedes).2.2 x isLast production.head rfl
    exact precedes.first ⟨production, declared, rfl, isFirst⟩

/-- A symbol before the rest of a body, or before its head, stands as it should once the body has
replaced the head. -/
theorem Situated.expand (accepted : grammar.Accepted start endMarker) {production : Production}
    {before after front middle : List String} {symbol : String}
    (situated : grammar.Situated start endMarker before production.head after)
    (declared : production ∈ grammar.productions)
    (expands : grammar.isNonTerminal symbol = true)
    (split : before ++ production.body = front ++ symbol :: middle) :
    grammar.Situated start endMarker front symbol (middle ++ after) := by
  have chain := situated.body declared
  rw [List.cons_append, split, List.isChain_cons_split] at chain
  refine ⟨chain.1, ?_⟩
  cases middle with
  | nil =>
    -- The symbol ends the body.
    have ended : (before ++ production.body).getLast? = some symbol := by
      rw [split, List.getLast?_concat]
    rw [List.getLast?_append_of_ne_nil _ (accepted.body_ne_nil production declared)] at ended
    exact situated.follows.last ⟨production, declared, rfl, ended⟩
  | cons next middle =>
    have precedes := (List.isChain_cons_cons.mp chain.2).1
    exact precedes.follows (accepted.ne_endMarker_of_isNonTerminal expands)

/-! ## Along a derivation -/

/-- What can be expanded stands before symbols that cannot. -/
theorem IsTerminalForm.split {before after front back : List String} {symbol : String}
    (terminal : grammar.IsTerminalForm after) (expands : grammar.isNonTerminal symbol = true)
    (split : before ++ after = front ++ symbol :: back) :
    ∃ middle, before = front ++ symbol :: middle ∧ back = middle ++ after := by
  have outside : symbol ∉ after := by
    intro held
    rw [terminal symbol held] at expands
    cases expands
  rcases List.append_eq_append_iff.mp split with ⟨inner, _, isAfter⟩ | ⟨inner, isBefore, isBack⟩
  · exact absurd (isAfter ▸ List.mem_append_right _ List.mem_cons_self) outside
  · rcases List.cons_eq_append_iff.mp isBack with ⟨_, isAfter⟩ | ⟨middle, rfl, isBack⟩
    · exact absurd (isAfter ▸ List.mem_cons_self) outside
    · exact ⟨middle, isBefore, (List.cons.inj isBack).2⟩

/-- In every form of a rightmost derivation the symbols that can be expanded stand as they should,
if they do in the first. -/
theorem situated_of_derivation (accepted : grammar.Accepted start endMarker)
    {form last : List String} {derivation : Derivation}
    (derived : grammar.RightmostDerivation form derivation last)
    (first : ∀ before symbol after, form = before ++ symbol :: after →
      grammar.isNonTerminal symbol = true →
        grammar.Situated start endMarker before symbol after) :
    ∀ before symbol after, last = before ++ symbol :: after →
      grammar.isNonTerminal symbol = true →
        grammar.Situated start endMarker before symbol after := by
  induction derived with
  | refl => exact first
  | step stepped _ ih =>
    apply ih
    intro front symbol back isSplit expands
    cases stepped with
    | expand before after declared terminal =>
      obtain ⟨middle, isBody, rfl⟩ := terminal.split expands isSplit
      have situated := first before _ after rfl (accepted.isNonTerminal_head declared)
      exact situated.expand accepted declared expands isBody

/-- In every form that the start symbol derives, the symbols that can be expanded stand as they
should. -/
theorem situated_of_start (accepted : grammar.Accepted start endMarker)
    {derivation : Derivation} {before after : List String} {symbol : String}
    (derived : grammar.RightmostDerivation [start] derivation (before ++ symbol :: after))
    (expands : grammar.isNonTerminal symbol = true) :
    grammar.Situated start endMarker before symbol after := by
  refine situated_of_derivation accepted derived ?_ before symbol after rfl expands
  intro before symbol after isStart _
  rcases List.singleton_eq_append_iff.mp isStart with ⟨rfl, same⟩ | ⟨_, none⟩
  · obtain ⟨rfl, rfl⟩ := List.cons.inj same
    refine ⟨?_, Or.inr ⟨rfl, .refl⟩⟩
    exact List.isChain_pair.mpr (Or.inr ⟨rfl, .refl⟩)
  · cases none

end Grammar

namespace Relations

variable {grammar : Grammar} {start endMarker : String}

/-- What cannot be expanded may be read wherever it may stand while nothing has been expanded. -/
theorem shifts_of_precedes (accepted : grammar.Accepted start endMarker) {x z : String}
    (precedes : grammar.Precedes start endMarker x z)
    (unexpanded : grammar.isNonTerminal z = false) :
    (ofGrammar grammar start endMarker).shifts x z = true := by
  rw [shifts_iff accepted.toWellFormed]
  rcases precedes with ⟨y, adjacent, path⟩ | ⟨isEnd, path⟩
  · rcases Grammar.eq_or_properEdgePath path with rfl | path
    · exact Or.inl adjacent
    · exact Or.inr (Or.inl ⟨y, adjacent, path⟩)
  · rcases Grammar.eq_or_properEdgePath path with rfl | path
    · rw [accepted.start_isNonTerminal] at unexpanded
      cases unexpanded
    · exact Or.inr (Or.inr ⟨isEnd, path⟩)

/-- A symbol may be read after its neighbour if it begins with it. -/
theorem shifts_of_begins (wellFormed : grammar.WellFormed) {x y w : String}
    (adjacent : grammar.Adjacent x y) (begins : grammar.Begins y w) :
    (ofGrammar grammar start endMarker).shifts x w = true := by
  rw [shifts_iff wellFormed]
  rw [Grammar.Begins] at begins
  split at begins
  · exact Or.inr (Or.inl ⟨y, adjacent, begins⟩)
  · exact Or.inl (begins ▸ adjacent)

/-- The last symbol of a body takes over what may come after its head and cannot be expanded,
unless the symbol is the head itself: then that may be read after the symbol, or the symbol is the
start symbol before the end marker. -/
theorem takes_of_follows (accepted : grammar.Accepted start endMarker)
    {symbol last follow : String} (follows : grammar.Follows start endMarker symbol follow)
    (stepped : grammar.EdgeStep .right symbol last)
    (unexpanded : grammar.isNonTerminal follow = false) :
    (ofGrammar grammar start endMarker).holds last .takes follow = true ∨
      last = symbol ∧ ((ofGrammar grammar start endMarker).shifts last follow = true ∨
        last = start ∧ follow = endMarker) := by
  rw [holds_takes_iff accepted.toWellFormed]
  rcases follows with ⟨x, y, adjacent, path, leftPath⟩ | ⟨isEnd, path⟩
  · have begins := Grammar.begins_of_path accepted.toWellFormed leftPath unexpanded
    rcases Grammar.properEdgePath_or_recursive path stepped with proper | ⟨rfl, rfl⟩
    · exact Or.inl (Or.inl ⟨x, y, adjacent, proper, begins⟩)
    · exact Or.inr ⟨rfl, Or.inl (shifts_of_begins accepted.toWellFormed adjacent begins)⟩
  · rcases Grammar.properEdgePath_or_recursive path stepped with proper | ⟨rfl, rfl⟩
    · exact Or.inl (Or.inr ⟨isEnd, proper⟩)
    · exact Or.inr ⟨rfl, Or.inr ⟨rfl, isEnd⟩⟩

/-- Where a production of a ruleset ends a rightmost derivation so far, each symbol up to the end of
its body that cannot be expanded may be read after the symbol before it, and the last symbol of
the body takes over what comes next. The latter may fail only where the production ends with its
own head: then what comes next may be read after the head, or it is the end marker after the
start symbol. -/
theorem relations_cover_handle {ruleset : Ruleset} (made : ruleset.grammar = .ok grammar)
    {production : Production} (declared : production ∈ grammar.productions)
    {derivation : Derivation} {before after : List String}
    (derived : grammar.RightmostDerivation [ruleset.start] derivation
      (before ++ production.head :: after))
    (terminal : grammar.IsTerminalForm after) :
    let relations := ofGrammar grammar ruleset.start ruleset.endMarker
    (∀ front symbol back, before ++ production.body = front ++ symbol :: back →
      grammar.isNonTerminal symbol = false →
        relations.shifts (front.getLast?.getD ruleset.endMarker) symbol = true) ∧
    ∀ last, production.last? = some last →
      let follow := after.head?.getD ruleset.endMarker
      relations.holds last .takes follow = true ∨
        last = production.head ∧ (relations.shifts last follow = true ∨
          last = ruleset.start ∧ follow = ruleset.endMarker) := by
  intro relations
  have accepted := (Grammar.accepted_of_ruleset made).1
  have situated := Grammar.situated_of_start accepted derived
    (accepted.isNonTerminal_head declared)
  constructor
  · intro front symbol back split unexpanded
    have chain := situated.body declared
    rw [List.cons_append, split] at chain
    refine shifts_of_precedes accepted ?_ unexpanded
    rcases List.eq_nil_or_concat front with rfl | ⟨earlier, previous, rfl⟩
    · exact (List.isChain_cons_cons.mp chain).1
    · rw [List.concat_append, List.isChain_cons_append_cons_cons] at chain
      rw [List.concat_eq_append, List.getLast?_concat]
      exact chain.2.1
  · intro last isLast follow
    have unexpanded : grammar.isNonTerminal follow = false := by
      cases after with
      | nil =>
        rw [← Bool.not_eq_true]
        exact fun expands => accepted.ne_endMarker_of_isNonTerminal expands rfl
      | cons next after => exact terminal next List.mem_cons_self
    exact takes_of_follows accepted situated.follows ⟨production, declared, rfl, isLast⟩ unexpanded

/-- In the form that the start symbol of the small imperative language is expanded to, the body that
adds a statement may be read up to its end, which takes over the last symbol. -/
theorem relations_cover_handle_program :
    let grammar := Grammar.index Ruleset.program.productions none
    let relations := ofGrammar grammar "<program>" "$"
    let production : Production := ⟨"<statements>", ["<statements>", "<statement>"]⟩
    Ruleset.program.grammar = .ok grammar ∧ production ∈ grammar.productions ∧
      grammar.RightmostDerivation ["<program>"]
        [⟨"<program>", ["vars", "<declarations>", "begin", "<statements>", "end"]⟩]
        (["vars", "<declarations>", "begin"] ++ production.head :: ["end"]) ∧
      grammar.IsTerminalForm ["end"] ∧
      relations.shifts "<declarations>" "begin" = true ∧
      (relations.holds "<statement>" .takes "end" = true ∨
        "<statement>" = "<statements>" ∧ (relations.shifts "<statement>" "end" = true ∨
          "<statement>" = "<program>" ∧ "end" = "$")) := by
  intro grammar relations production
  have made : Ruleset.program.grammar = .ok grammar := rfl
  have declared : production ∈ grammar.productions := by decide +kernel
  have derived : grammar.RightmostDerivation ["<program>"]
      [⟨"<program>", ["vars", "<declarations>", "begin", "<statements>", "end"]⟩]
      (["vars", "<declarations>", "begin"] ++ production.head :: ["end"]) :=
    .step (.expand [] [] (by decide +kernel) grammar.isTerminalForm_nil) (.refl _)
  have terminal : grammar.IsTerminalForm ["end"] := List.forall_mem_singleton.mpr rfl
  have covered := relations_cover_handle made declared derived terminal
  exact ⟨made, declared, derived, terminal,
    covered.1 ["vars", "<declarations>"] "begin" ["<statements>", "<statement>"] rfl rfl,
    covered.2 "<statement>" rfl⟩

/-- The start symbol ends a body of its own in a form it derives, but does not take over the end
marker. -/
theorem recursive_end_lacks_takes :
    let grammar := Grammar.index Ruleset.rightRecursive.productions none
    let production : Production := ⟨"S", ["a", "S"]⟩
    Ruleset.rightRecursive.grammar = .ok grammar ∧ grammar.emptySymbol = none ∧
      production ∈ grammar.productions ∧
      grammar.RightmostDerivation ["S"] [] ([] ++ production.head :: []) ∧
      production.last? = some "S" ∧
      (ofGrammar grammar "S" "$").holds "S" .takes "$" = false := by
  intro grammar production
  refine ⟨rfl, rfl, ?_, .refl _, rfl, ?_⟩
  · decide +kernel
  · decide +kernel

end Relations

end Precedence
