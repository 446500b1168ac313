import Precedence.Yaml.Document

/-!
# Values of nodes

A decoder reads a value of a known shape from a node: a text, an optional text, a list, or a
record with named fields. An alias is followed to the node it stands for; a document may follow at
most a hundred aliases for each event that reports its nodes.
-/

namespace Precedence.Yaml

/-- A reading of a value from a document, which counts the aliases followed and may fail. -/
abbrev Decoder := ReaderT Document (StateT Nat Option)

namespace Decoder

/-- The node itself, or the node that an alias stands for. -/
def follow (node : Node) : Decoder Node := do
  match node with
  | .alias number =>
    let document ← read
    modify (· + 1)
    if 100 * document.root.eventCount < (← get) then failure
    let some found := document.resolve? number | failure
    return found
  | _ => return node

/-- The text of a scalar, however it is written. -/
def text (node : Node) : Decoder String := do
  match ← follow node with
  | .scalar text _ _ => return text
  | _ => failure

/-- The plain texts that stand for no value. -/
def nullTexts : List String := ["null", "Null", "NULL", "~"]

/-- The tag of the absence of a value. -/
def nullTag : String := "tag:yaml.org,2002:null"

/-- The text of a scalar, or nothing for a plain scalar that is empty or stands for no value. A
plain scalar with a tag is a text, except that the tag of the absence of a value demands one of
the texts for it. -/
def optionalText (node : Node) : Decoder (Option String) := do
  match ← follow node with
  | .scalar text false _ => return some text
  | .scalar text true none =>
    return if text.isEmpty || nullTexts.contains text then none else some text
  | .scalar text true (some tag) =>
    if tag ≠ nullTag then return some text
    if nullTexts.contains text then return none
    failure
  | _ => failure

/-- The values of the items of a sequence; an empty plain scalar has none. -/
def list {α : Type} (item : Node → Decoder α) (node : Node) : Decoder (List α) := do
  match ← follow node with
  | .sequence items => items.mapM item
  | .scalar "" true _ => return []
  | _ => failure

/-- The values of the known fields of a record, in written order. Every key is a text; a known
field that stands twice is a fault, and other fields are passed over. -/
def fields (known : List String) (node : Node) : Decoder (List (String × Node)) := do
  match ← follow node with
  | .mapping entries =>
    let named ← entries.mapM fun (key, value) => return (← text key, value)
    let found := named.filter (known.contains ·.1)
    if (found.map Prod.fst).Nodup then return found else failure
  | _ => failure

/-- The value of a field that must be there. -/
def required {α : Type} (record : List (String × Node)) (name : String)
    (value : Node → Decoder α) : Decoder α := do
  let some node := record.lookup name | failure
  value node

/-- The value of a field, or a default when it is not there. -/
def withDefault {α : Type} (record : List (String × Node)) (name : String)
    (value : Node → Decoder α) (default : α) : Decoder α :=
  match record.lookup name with
  | some node => value node
  | none => return default

end Decoder

/-- The value that a decoder reads from the only document of a text. -/
def decode? {α : Type} (decoder : Node → Decoder α) (text : String) : Option α := do
  let document ← document? text
  let (value, _) ← ((decoder document.root).run document).run 0
  return value

end Precedence.Yaml
