import Precedence.Text.Blank

/-!
# Productions

A production is one alternative of a rule: a head and the symbols that it stands for. The key of a
production is its body written with one space between symbols; reductions look productions up by
it.
-/

namespace Precedence

open Text (joinWords splitWords)

/-- One alternative of a rule. -/
structure Production where
  /-- The symbol that the production expands. -/
  head : String
  /-- The symbols that the head stands for, in order. -/
  body : List String
  deriving DecidableEq

namespace Production

/-- A production whose body is written as words. -/
def ofText (head body : String) : Production :=
  ⟨head, splitWords body⟩

/-- The symbols of the body with one space between neighbours. -/
def key (production : Production) : String :=
  joinWords production.body

/-- The first symbol of the body. -/
def first? (production : Production) : Option String :=
  production.body.head?

/-- The last symbol of the body. -/
def last? (production : Production) : Option String :=
  production.body.getLast?

/-- The head, an arrow and the body. -/
def display (production : Production) : String :=
  s!"{production.head} → {production.key}"

end Production

end Precedence
