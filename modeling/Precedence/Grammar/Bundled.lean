import Precedence.Grammar.Ruleset

/-!
# Bundled grammars

Two rulesets: the small imperative language whose lexemes the patterns describe, and arithmetic
expressions over single characters, whose grammar has empty productions.
-/

namespace Precedence.Ruleset

/-- The grammar of the small imperative language. -/
def program : Ruleset where
  name := some "program"
  start := "<program>"
  endMarker := "$"
  empty := none
  rules := [
    ⟨"<program>", ["vars <declarations> begin <statements> end"]⟩,
    ⟨"<declarations>", ["<declarations> <declaration>", "<declaration>"]⟩,
    ⟨"<declaration>", ["id : <type> ;"]⟩,
    ⟨"<type>", ["int", "real", "string"]⟩,
    ⟨"<statements>", ["<statements> <statement>", "<statement>"]⟩,
    ⟨"<statement>", ["id = <expression> ;", "return <expression> ;"]⟩,
    ⟨"<expression>", ["<expression> + <term>", "<expression> - <term>", "<term>"]⟩,
    ⟨"<term>", ["<term> * <factor>", "<term> / <factor>", "<factor>"]⟩,
    ⟨"<factor>", ["( <expression> )", "id", "num", "text"]⟩]

/-- The grammar of arithmetic expressions over single characters. -/
def arithmetic : Ruleset where
  name := some "arithmetic"
  start := "E"
  endMarker := "$"
  empty := some "ε"
  rules := [
    ⟨"E", ["M F"]⟩,
    ⟨"F", ["+ M F", "ε"]⟩,
    ⟨"M", ["P N"]⟩,
    ⟨"N", ["x P N", "ε"]⟩,
    ⟨"P", ["( E )", "v"]⟩]

end Precedence.Ruleset
