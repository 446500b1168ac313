import Precedence.Grammar.Basic

/-!
# Rightmost derivations

A form is a list of symbols. A rightmost step replaces the last non-terminal of a form by the body
of one of its productions, and a rightmost derivation is a sequence of such steps, given by the
productions used. Derivations follow each other, and a step is not disturbed by what stands before
the form.
-/

namespace Precedence

/-- Productions in the order of a derivation. -/
abbrev Derivation := List Production

namespace Grammar

/-- Whether no symbol of a form can be expanded. -/
def IsTerminalForm (grammar : Grammar) (form : List String) : Prop :=
  ∀ symbol ∈ form, grammar.isNonTerminal symbol = false

/-- One production of the grammar expands the last non-terminal of a form. -/
inductive RightmostStep (grammar : Grammar) (production : Production) :
    List String → List String → Prop
  /-- The symbols after the head cannot be expanded. -/
  | expand (before after : List String) (declared : production ∈ grammar.productions)
      (terminal : grammar.IsTerminalForm after) :
      RightmostStep grammar production (before ++ production.head :: after)
        (before ++ production.body ++ after)

/-- Productions that lead from one form to another, each expanding the last non-terminal. -/
inductive RightmostDerivation (grammar : Grammar) :
    List String → Derivation → List String → Prop
  /-- No production leads from a form to itself. -/
  | refl (form : List String) : RightmostDerivation grammar form [] form
  /-- A first step, and a derivation from where it leads. -/
  | step {form next last : List String} {production : Production} {derivation : Derivation}
      (first : grammar.RightmostStep production form next)
      (others : RightmostDerivation grammar next derivation last) :
      RightmostDerivation grammar form (production :: derivation) last

/-- A form without its empty symbols. -/
def withoutEmpty (grammar : Grammar) (form : List String) : List String :=
  form.filter (!grammar.isEmptySymbol ·)

/-- Whether a derivation leads from a symbol to a word, not counting empty symbols. -/
def Derives (grammar : Grammar) (start : String) (derivation : Derivation)
    (word : List String) : Prop :=
  ∃ form, grammar.RightmostDerivation [start] derivation form ∧ grammar.IsTerminalForm form ∧
    grammar.withoutEmpty form = word

/-- Whether a word belongs to the language of a symbol. -/
def Generates (grammar : Grammar) (start : String) (word : List String) : Prop :=
  ∃ derivation, grammar.Derives start derivation word

variable {grammar : Grammar}

/-- The form without symbols cannot be expanded. -/
theorem isTerminalForm_nil (grammar : Grammar) : grammar.IsTerminalForm [] :=
  fun _ held => absurd held List.not_mem_nil

/-- A derivation and one from where it leads are one derivation. -/
theorem RightmostDerivation.trans {form middle last : List String} {earlier later : Derivation}
    (first : grammar.RightmostDerivation form earlier middle)
    (second : grammar.RightmostDerivation middle later last) :
    grammar.RightmostDerivation form (earlier ++ later) last := by
  induction first with
  | refl => exact second
  | step expanded _ ih => exact .step expanded (ih second)

/-- A derivation can take place behind any form. -/
theorem RightmostDerivation.append_left {form last : List String} {derivation : Derivation}
    (before : List String) (derived : grammar.RightmostDerivation form derivation last) :
    grammar.RightmostDerivation (before ++ form) derivation (before ++ last) := by
  induction derived with
  | refl => exact .refl _
  | step expanded _ ih =>
    refine .step ?_ ih
    cases expanded with
    | expand inner after declared terminal =>
      have expanded := RightmostStep.expand (before ++ inner) after declared terminal
      simpa only [List.append_assoc] using expanded

/-- A derivation can take place before a form that cannot be expanded. -/
theorem RightmostDerivation.append_right {form last : List String} {derivation : Derivation}
    {after : List String} (terminal : grammar.IsTerminalForm after)
    (derived : grammar.RightmostDerivation form derivation last) :
    grammar.RightmostDerivation (form ++ after) derivation (last ++ after) := by
  induction derived with
  | refl => exact .refl _
  | step expanded _ ih =>
    refine .step ?_ ih
    cases expanded with
    | expand before inner declared innerTerminal =>
      have joined : grammar.IsTerminalForm (inner ++ after) := fun symbol held =>
        (List.mem_append.mp held).elim (innerTerminal symbol) (terminal symbol)
      have expanded := RightmostStep.expand before (inner ++ after) declared joined
      simpa only [List.append_assoc, List.cons_append] using expanded

end Grammar

end Precedence
