import Precedence.Grammar.Derivation
import Precedence.SyntaxTree.Derivation

/-!
# Productions that a tree uses up

Building a tree takes one production for the root and one for every symbol of a body that can be
expanded. So a derivation that is used up has one production more than its bodies have such
symbols, whether or not it is a derivation of anything.
-/

namespace Precedence

namespace Grammar

/-- The number of symbols of a form that can be expanded. -/
def expandable (grammar : Grammar) (form : List String) : Nat :=
  form.countP grammar.isNonTerminal

/-- The number of symbols of the bodies of productions that can be expanded. -/
def opened (grammar : Grammar) (derivation : Derivation) : Nat :=
  grammar.expandable (derivation.flatMap Production.body)

variable {grammar : Grammar}

/-- The symbols that can be expanded are counted part by part. -/
theorem expandable_append (form other : List String) :
    grammar.expandable (form ++ other) = grammar.expandable form + grammar.expandable other :=
  List.countP_append

/-- A form without symbols that can be expanded cannot be expanded. -/
theorem expandable_eq_zero_iff {form : List String} :
    grammar.expandable form = 0 ↔ grammar.IsTerminalForm form := by
  simp [expandable, IsTerminalForm, List.countP_eq_zero]

/-- A symbol that can be expanded is one. -/
theorem expandable_singleton {symbol : String} (expands : grammar.isNonTerminal symbol = true) :
    grammar.expandable [symbol] = 1 := by
  simp [expandable, expands]

/-- A production opens the symbols of its body, and the productions after it open theirs. -/
theorem opened_cons (production : Production) (derivation : Derivation) :
    grammar.opened (production :: derivation) =
      grammar.expandable production.body + grammar.opened derivation := by
  rw [opened, List.flatMap_cons, expandable_append, opened]

/-- Productions one after another open the symbols of both. -/
theorem opened_append (derivation later : Derivation) :
    grammar.opened (derivation ++ later) = grammar.opened derivation + grammar.opened later := by
  rw [opened, List.flatMap_append, expandable_append, opened, opened]

end Grammar

namespace SyntaxTree

variable {grammar : Grammar}

/-- Whether productions are used up by so many symbols that can be expanded, and leave others. -/
def Uses (grammar : Grammar) (count : Nat) (derivation rest : Derivation) : Prop :=
  ∃ used, derivation = used ++ rest ∧ used.length = count + grammar.opened used

/-- Productions that are used up one after another are used up together. -/
theorem Uses.trans {earlier later : Nat} {derivation middle rest : Derivation}
    (first : Uses grammar earlier derivation middle) (second : Uses grammar later middle rest) :
    Uses grammar (earlier + later) derivation rest := by
  obtain ⟨used, rfl, isUsed⟩ := first
  obtain ⟨others, rfl, isOthers⟩ := second
  refine ⟨used ++ others, (List.append_assoc _ _ _).symm, ?_⟩
  rw [List.length_append, Grammar.opened_append]
  omega

/-- A production is used up with what its body uses up. -/
theorem Uses.cons {production : Production} {derivation rest : Derivation}
    (uses : Uses grammar (grammar.expandable production.body) derivation rest) :
    Uses grammar 1 (production :: derivation) rest := by
  obtain ⟨used, rfl, isUsed⟩ := uses
  refine ⟨production :: used, rfl, ?_⟩
  rw [List.length_cons, Grammar.opened_cons]
  omega

/-- The trees of a body use up a production for each symbol that can be expanded, and for each such
symbol below them. -/
theorem expandBody_uses
    {expandOne : String → List Production → Except TreeError (SyntaxTree × List Production)}
    (one : ∀ symbol before tree after, expandOne symbol before = .ok (tree, after) →
      Uses grammar 1 before after)
    {symbols : List String} {before after : Derivation} {trees : List SyntaxTree}
    (built : expandBody grammar expandOne symbols before = .ok (trees, after)) :
    Uses grammar (grammar.expandable symbols) before after := by
  induction symbols generalizing trees after with
  | nil =>
    cases built
    exact ⟨[], rfl, rfl⟩
  | cons symbol symbols ih =>
    rw [expandBody] at built
    cases later : expandBody grammar expandOne symbols before with
    | error error =>
      rw [later] at built
      cases built
    | ok result =>
      obtain ⟨others, middle⟩ := result
      have usesLater := ih later
      rw [later] at built
      by_cases expands : grammar.isNonTerminal symbol = true
      · simp only [expands, if_true] at built
        cases first : expandOne symbol middle with
        | error error =>
          rw [first] at built
          cases built
        | ok result =>
          obtain ⟨tree, rest⟩ := result
          rw [first] at built
          cases built
          have uses := usesLater.trans (one symbol middle tree after first)
          rwa [Nat.add_comm, ← Grammar.expandable_singleton expands,
            ← Grammar.expandable_append] at uses
      · simp only [if_neg expands] at built
        cases built
        rwa [Grammar.expandable, List.countP_cons_of_neg expands]

/-- The tree of a symbol uses up a production for it, and for each symbol below it that can be
expanded. -/
theorem expand_uses {levels : Nat} {symbol : String} {before after : Derivation}
    {tree : SyntaxTree} (built : expand grammar levels symbol before = .ok (tree, after)) :
    Uses grammar 1 before after := by
  induction levels generalizing symbol before tree after with
  | zero => cases built
  | succ levels ih =>
    cases before with
    | nil => cases built
    | cons production before =>
      rw [expand] at built
      by_cases heads : production.head = symbol
      · rw [if_pos heads] at built
        cases body : expandBody grammar (expand grammar levels) production.body before with
        | error error =>
          rw [body] at built
          cases built
        | ok result =>
          obtain ⟨children, rest⟩ := result
          rw [body] at built
          cases built
          have uses := expandBody_uses (fun _ _ _ _ expanded => ih expanded) body
          exact uses.cons
      · rw [if_neg heads] at built
        cases built

/-- A derivation that has a tree has one production more than its bodies have symbols that can be
expanded. -/
theorem length_of_ofDerivation {derivation : Derivation} {tree : SyntaxTree}
    (built : ofDerivation grammar derivation = .ok tree) :
    derivation.length = 1 + grammar.opened derivation := by
  cases derivation with
  | nil => cases built
  | cons first others =>
    rw [ofDerivation] at built
    cases expanded : expand grammar (others.length + 1) first.head (first :: others) with
    | error error =>
      rw [expanded] at built
      cases built
    | ok result =>
      obtain ⟨root, rest⟩ := result
      rw [expanded] at built
      cases rest with
      | nil =>
        obtain ⟨used, isUsed, isLength⟩ := expand_uses expanded
        rw [List.append_nil] at isUsed
        exact isUsed ▸ isLength
      | cons => cases built

end SyntaxTree

end Precedence
