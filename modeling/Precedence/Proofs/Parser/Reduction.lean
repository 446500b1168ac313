import Precedence.Parser.Trace
import Precedence.Proofs.Parser.InsertionLimit
import Precedence.Proofs.Parser.Stack

/-!
# Reductions, symbol by symbol

A reduction looks productions up by the key of their body, which writes the symbols with a space
between neighbours. Heads, the empty symbol and the end marker may hold spaces or be empty, so
different lists of symbols can have the same key. Where a run calls for a reduction, though,
everything on the stack stands in a body, and a list of such symbols is told by its key. So what is
replaced is what comparing symbol by symbol finds: the longest body that ends the kinds of the
stack.
-/

namespace Precedence

open Text (joinWords)

/-- A ruleset whose start symbol is written as one of its bodies of two symbols, which has another
head too, and whose end marker is the empty text. -/
def Ruleset.spaced : Ruleset where
  name := none
  start := "x y"
  endMarker := ""
  empty := none
  rules := [⟨"x y", ["x y", "x y z"]⟩, ⟨"other", ["x y"]⟩]

namespace Parser

variable {parser : Parser}

/-! ## The choice of a production -/

/-- The production to reduce a body by, given the kind of the element beneath it: the first one
declared with that body, except that a body written as the empty symbol is reduced by the first one
whose head the kind beneath yields to or is equal to, if there is one. -/
def choice (parser : Parser) (body : List String) (beneath : String) : Option Production :=
  let declared := parser.grammar.productions.filter (·.body = body)
  if parser.grammar.isEmptySymbol (joinWords body) then
    (declared.find? fun production => parser.relations.holds beneath .yields production.head ||
      parser.relations.holds beneath .equal production.head).or declared.head?
  else declared.head?

/-- The key of a declared body selects the production to choose for the body. -/
theorem select_key (accepted : parser.Accepted) {production : Production}
    (declared : production ∈ parser.grammar.productions) (beneath : String) :
    parser.select production.key beneath = parser.choice production.body beneath := by
  have sameKey : ∀ other ∈ parser.grammar.productions,
      (other.key = production.key ↔ other.body = production.body) :=
    fun other held => accepted.joinWords_eq_key_iff declared fun symbol inBody =>
      ⟨other, held, inBody⟩
  have candidates : parser.grammar.productionsWithBody production.key =
      parser.grammar.productions.filter (·.body = production.body) := by
    rw [accepted.productionsWithBody_eq]
    exact List.filter_congr fun other held => decide_eq_decide.mpr (sameKey other held)
  rw [select, choice, ← candidates, Production.key]
  cases parser.grammar.productionsWithBody (joinWords production.body) with
  | nil => simp
  | cons first others => rfl

/-! ## The handle -/

/-- What the top of a stack is reduced by, told symbol by symbol. -/
structure IsHandle (parser : Parser) (top beneath : List Element) (production : Production) :
    Prop where
  /-- The top has the kinds of the body, one by one. -/
  body_eq : form top = production.body
  /-- The kinds of the stack end with no longer body. -/
  longest : ∀ other ∈ parser.grammar.productions,
    production.body.length < other.body.length → ¬ other.body <:+ form (top ++ beneath)
  /-- The production is the one to choose for the body. -/
  chosen : parser.choice production.body (parser.topKind beneath) = some production

/-- On a stack of symbols of bodies the handle is found by its symbols, and if none is found then
the kinds of the stack end with no body. -/
theorem findHandle_cases (accepted : parser.Accepted) {stack : List Element}
    (occur : ∀ element ∈ stack, parser.grammar.Occurs element.kind) :
    (∃ top beneath production, stack = top ++ beneath ∧ parser.IsHandle top beneath production ∧
      parser.findHandle stack (min stack.length parser.longestBody) =
        some (production, beneath)) ∨
    parser.findHandle stack (min stack.length parser.longestBody) = none ∧
      ∀ production ∈ parser.grammar.productions, ¬ production.body <:+ form stack := by
  cases found : parser.findHandle stack (min stack.length parser.longestBody) with
  | some handle =>
    obtain ⟨production, beneath⟩ := handle
    left
    obtain ⟨declared, isBeneath, isForm, longest⟩ := findHandle_sound accepted occur found
    obtain ⟨length, _, _, _, selected, _⟩ := findHandle_eq_some_iff.mp found
    have keyed := (select_some accepted selected).2
    have isStack : stack = stack.take production.body.length ++ beneath := by
      rw [isBeneath, List.take_append_drop]
    refine ⟨stack.take production.body.length, beneath, production, isStack, ?_, rfl⟩
    constructor
    · rw [isStack, form_append] at isForm
      exact List.append_cancel_left isForm
    · intro other otherDeclared longer ends
      rw [← isStack] at ends
      exact Nat.not_lt.mpr (longest other otherDeclared ends) longer
    · rw [← select_key accepted declared, keyed, selected]
  | none =>
    right
    refine ⟨rfl, fun production declared ends => ?_⟩
    obtain ⟨before, isForm⟩ := ends
    obtain ⟨isBody, short⟩ := take_eq_of_form_eq isForm.symm
    have unselected := findHandle_eq_none_iff.mp found production.body.length
      (List.length_pos_of_ne_nil (accepted.body_ne_nil production declared))
      (Nat.le_min.mpr ⟨short, length_body_le_longestBody declared⟩)
    refine (select_eq_none_iff accepted).mp unselected production declared ?_
    exact ((topKey_eq_key_iff accepted occur declared _).mpr isBody).symm

/-! ## Reductions of a run -/

variable {σ : Type} [Supply σ]

/-- What can be on the stack of a configuration that a run reaches. -/
theorem stacked_of_reaches (accepted : parser.Accepted) {input : σ} {moves : List Move}
    {configuration : Configuration σ} (reached : parser.Reaches input moves configuration) :
    parser.Stacked configuration.stack := by
  induction reached with
  | start started =>
    rw [(initial_running started).1]
    exact stacked_nil parser
  | step _ stepped ih => exact ih.transition accepted (transition_of_step stepped)

/-- What a step that reduces does, told symbol by symbol. -/
inductive ReducesBySymbols (parser : Parser) (configuration : Configuration σ) : Prop
  /-- The longest body that ends the kinds of the stack is replaced by the head to choose. -/
  | replaces {top beneath : List Element} {production : Production}
      (isStack : configuration.stack = top ++ beneath)
      (isHandle : parser.IsHandle top beneath production)
      (stepped : parser.step configuration = parser.settle { configuration with
        stack := .symbol production.head :: beneath
        derivation := production :: configuration.derivation })
  /-- The kinds of the stack end with no body, and the element that comes next is refused. -/
  | refuses
      (none : ∀ production ∈ parser.grammar.productions,
        ¬ production.body <:+ form configuration.stack)
      (stepped : parser.step configuration = reject configuration)

/-- In every configuration of a run that calls for a reduction, the look-up by keys replaces the
longest body that ends the kinds of the stack, symbol by symbol, by the head to choose for it, and
refuses the element that comes next if there is no such body. -/
theorem reducesBySymbols_of_reaches {ruleset : Ruleset} (made : ofRuleset ruleset = .ok parser)
    {input : σ} {moves : List Move} {configuration : Configuration σ}
    (reached : parser.Reaches input moves configuration)
    (isReduce : parser.nextMove configuration = .reduce) :
    parser.ReducesBySymbols configuration := by
  have accepted := (accepted_of_ruleset made).1
  have goesOn : parser.nextMove configuration ≠ .reject := by
    rw [isReduce]
    exact Move.noConfusion
  have occur := (stacked_of_reaches accepted reached).occurs accepted goesOn
  rcases findHandle_cases accepted occur with
    ⟨top, beneath, production, isStack, isHandle, found⟩ | ⟨missing, none⟩
  · exact .replaces isStack isHandle (Transition.reduce isReduce found).step_eq
  · refine .refuses none ?_
    simp only [step, isReduce, reduce, missing]

/-- The parser of `Ruleset.spaced`. -/
def spaced : Parser :=
  ofGrammar (Grammar.index Ruleset.spaced.productions none) "x y" ""

/-- The ruleset with a start symbol of two words passes every check. -/
theorem ofRuleset_spaced : ofRuleset .spaced = .ok spaced := by rfl

/-- Two symbols on a stack that are written as the start symbol are replaced by it, since it is the
head declared first. -/
theorem reducesBySymbols_of_reaches_spaced :
    let configuration : Configuration SymbolSupply :=
      ⟨[.symbol "y", .symbol "x"], [], .symbol "", 0, ⟨[], ""⟩⟩
    ofRuleset .spaced = .ok spaced ∧
      (∃ moves, spaced.Reaches (SymbolSupply.mk ["x", "y"] "") moves configuration) ∧
      spaced.nextMove configuration = .reduce ∧ spaced.ReducesBySymbols configuration ∧
      spaced.step configuration =
        .finished (.ok [⟨"x y", ["x", "y"]⟩]) (SymbolSupply.mk [] "") := by
  intro configuration
  have begun : spaced.initial (SymbolSupply.mk ["x", "y"] "") =
      .running ⟨[], [], .symbol "x", 0, ⟨["y"], ""⟩⟩ := by rfl
  have once : spaced.step ⟨[], [], .symbol "x", 0, (⟨["y"], ""⟩ : SymbolSupply)⟩ =
      .running ⟨[.symbol "x"], [], .symbol "y", 0, ⟨[], ""⟩⟩ := by rfl
  have twice : spaced.step ⟨[.symbol "x"], [], .symbol "y", 0, (⟨[], ""⟩ : SymbolSupply)⟩ =
      .running configuration := by rfl
  have reached := Reaches.step (.step (.start begun) once) twice
  have isReduce : spaced.nextMove configuration = .reduce := by decide +kernel
  exact ⟨ofRuleset_spaced, ⟨_, reached⟩, isReduce,
    reducesBySymbols_of_reaches ofRuleset_spaced reached isReduce, by rfl⟩

end Parser

end Precedence
