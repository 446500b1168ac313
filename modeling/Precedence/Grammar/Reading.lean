import Precedence.Grammar.Ruleset
import Precedence.Yaml.Decode

/-!
# Reading rulesets

A ruleset is written as a mapping with the start symbol and the rules, and, if wanted, a name, an
end marker and an empty symbol. A rule is a mapping with a head and its alternatives.
-/

namespace Precedence

open Yaml (Decoder Node)

/-- The decoder of a rule. -/
def Rule.decoder (node : Node) : Decoder Rule := do
  let record ← Decoder.fields ["head", "bodies"] node
  return {
    head := ← Decoder.required record "head" Decoder.text
    bodies := ← Decoder.required record "bodies" (Decoder.list Decoder.text) }

namespace Ruleset

/-- The decoder of a ruleset. -/
def decoder (node : Node) : Decoder Ruleset := do
  let record ← Decoder.fields ["name", "start", "end_marker", "empty", "rules"] node
  return {
    name := ← Decoder.withDefault record "name" Decoder.optionalText none
    start := ← Decoder.required record "start" Decoder.text
    endMarker := ← Decoder.withDefault record "end_marker" Decoder.text defaultEndMarker
    empty := ← Decoder.withDefault record "empty" Decoder.optionalText none
    rules := ← Decoder.required record "rules" (Decoder.list Rule.decoder) }

/-- The ruleset that a text describes. -/
def ofText (text : String) : Except GrammarError Ruleset :=
  match Yaml.decode? decoder text with
  | some ruleset => .ok ruleset
  | none => .error .malformed

end Ruleset

end Precedence
