import Precedence.Yaml.Token

/-!
# Documents

A document is a tree of nodes: scalars, sequences, mappings and aliases. A node can be anchored
under a name, and an alias stands for the last node that was anchored under its name before it.

Names are kept by number. An anchored node gets the number of distinct names anchored before it,
and a name has the number of the last node anchored under it. When a name is anchored again, two
names can come to share a number, and then both stand for the node that got it last.
-/

namespace Precedence.Yaml

/-- A node of a document. -/
inductive Node
  /-- A text, with whether it is plain and the tag of the node. -/
  | scalar (text : String) (isPlain : Bool) (tag : Option String)
  /-- A list of nodes. -/
  | sequence (items : List Node)
  /-- Keys with their values. -/
  | mapping (entries : List (Node × Node))
  /-- A reference to the node with a number. -/
  | alias (number : Nat)

/-- The scalar that stands for a missing node. -/
def Node.missing : Node := .scalar "" true none

mutual

/-- The number of events that report a node: two for a collection, around those of its parts, and
one for any other node. -/
def Node.eventCount : Node → Nat
  | .scalar _ _ _ => 1
  | .alias _ => 1
  | .sequence items => eventCountAll items + 2
  | .mapping entries => eventCountPairs entries + 2

/-- The number of events that report some nodes. -/
def Node.eventCountAll : List Node → Nat
  | [] => 0
  | item :: items => item.eventCount + eventCountAll items

/-- The number of events that report some keys and values. -/
def Node.eventCountPairs : List (Node × Node) → Nat
  | [] => 0
  | (key, value) :: entries => key.eventCount + value.eventCount + eventCountPairs entries

end

/-- A node with the nodes that its aliases stand for. -/
structure Document where
  /-- The node of the whole document. -/
  root : Node
  /-- The anchored nodes by the order of their starts. -/
  anchored : List (Nat × Node)
  /-- For each number, the anchored nodes that got it, the last one first. -/
  numbered : List (Nat × Nat)

/-- The node that a number stands for. -/
def Document.resolve? (document : Document) (number : Nat) : Option Node := do
  document.anchored.lookup (← document.numbered.lookup number)

/-- What is known while the nodes of a document are read. -/
structure NodeReader where
  /-- The tokens left. -/
  tokens : List Token
  /-- What the handles of tags stand for. -/
  handles : List (String × String)
  /-- The number of each anchored name. -/
  names : List (String × Nat)
  /-- For each number, the anchored nodes that got it, the last one first. -/
  numbered : List (Nat × Nat)
  /-- The anchored nodes that are complete, by the order of their starts. -/
  anchored : List (Nat × Node)

/-- A step of reading nodes, which may meet a fault. -/
abbrev NodeStep := StateT NodeReader Option

namespace NodeStep

/-- The next token; none at the end of the text. -/
def peek : NodeStep (Option Token) :=
  return (← get).tokens.head?

/-- Passes over the next token. -/
def skip : NodeStep Unit :=
  modify fun reader => { reader with tokens := reader.tokens.tail }

/-- Whether the next token is one of those given. -/
def nextIsAmong (tokens : List Token) : NodeStep Bool :=
  return (← peek).any tokens.contains

/-- Gives a name to the node that begins next, and gives its place among the anchored nodes. -/
def bindName (name : String) : NodeStep Nat := do
  let reader ← get
  let number := reader.names.length
  let place := reader.numbered.length
  set { reader with
    names := (name, number) :: reader.names.filter (·.1 != name)
    numbered := (number, place) :: reader.numbered }
  return place

/-- Records an anchored node that is complete. -/
def recordAnchored (place : Option Nat) (node : Node) : NodeStep Node := do
  if let some place := place then
    modify fun reader => { reader with anchored := (place, node) :: reader.anchored }
  return node

/-- The full form of a tag; a handle that is not declared is a fault. -/
def resolveTag (handle suffix : String) : NodeStep String := do
  if handle.isEmpty then return suffix
  let some lead := (← get).handles.lookup handle | failure
  return lead ++ suffix

/-- The name and the tag before a node, in either order. -/
def properties : NodeStep (Option String × Option String) := do
  match ← peek with
  | some (.anchor name) =>
    skip
    match ← peek with
    | some (.tag handle suffix) =>
      skip
      return (some name, some (← resolveTag handle suffix))
    | _ => return (some name, none)
  | some (.tag handle suffix) =>
    skip
    match ← peek with
    | some (.anchor name) =>
      skip
      return (some name, some (← resolveTag handle suffix))
    | _ => return (none, some (← resolveTag handle suffix))
  | _ => return (none, none)

mutual

/-- A node. Block collections are allowed only outside flow collections, and a block sequence
without indentation of its own only where a mapping's key or value is expected. -/
def node (allowsBlock allowsFlush : Bool) : Nat → NodeStep Node
  | 0 => failure
  | fuel + 1 => do
    if let some (.alias name) ← peek then
      skip
      let some number := (← get).names.lookup name | failure
      return .alias number
    let (name, tag) ← properties
    let next ← peek
    let isContent :=
      match next with
      | some (.scalar _ _) | some .flowSequenceStart | some .flowMappingStart => true
      | some .blockSequenceStart | some .blockMappingStart => allowsBlock
      | some .blockEntry => allowsFlush
      | _ => false
    if !isContent && name.isNone && tag.isNone then failure
    let place ← name.mapM bindName
    let node ←
      if !isContent then pure (.scalar "" true tag)
      else
        match next with
        | some (.scalar text isPlain) => do
          skip
          pure (.scalar text isPlain (if tag = some "!" then none else tag))
        | some .flowSequenceStart => do
          skip
          pure (.sequence (← flowItems true fuel))
        | some .flowMappingStart => do
          skip
          pure (.mapping (← flowEntries true fuel))
        | some .blockSequenceStart => do
          skip
          pure (.sequence (← blockItems fuel))
        | some .blockMappingStart => do
          skip
          pure (.mapping (← blockEntries fuel))
        | _ => pure (.sequence (← flushItems fuel))
    recordAnchored place node

/-- The items of a block sequence and its end. -/
def blockItems : Nat → NodeStep (List Node)
  | 0 => failure
  | fuel + 1 => do
    match ← peek with
    | some .blockEntry =>
      skip
      let item ←
        if ← nextIsAmong [.blockEntry, .blockEnd] then pure .missing else node true false fuel
      return item :: (← blockItems fuel)
    | some .blockEnd =>
      skip
      return []
    | _ => failure

/-- The items of a block sequence that has no indentation of its own. -/
def flushItems : Nat → NodeStep (List Node)
  | 0 => failure
  | fuel + 1 => do
    match ← peek with
    | some .blockEntry =>
      skip
      let item ←
        if ← nextIsAmong [.blockEntry, .key, .value, .blockEnd] then pure .missing
        else node true false fuel
      return item :: (← flushItems fuel)
    | _ => return []

/-- The key or the value of a block mapping after its sign. -/
def blockPart : Nat → NodeStep Node
  | 0 => failure
  | fuel + 1 => do
    if ← nextIsAmong [.key, .value, .blockEnd] then return .missing
    node true true fuel

/-- The entries of a block mapping and its end. -/
def blockEntries : Nat → NodeStep (List (Node × Node))
  | 0 => failure
  | fuel + 1 => do
    match ← peek with
    | some .key =>
      skip
      let key ← blockPart fuel
      let value ←
        if ← nextIsAmong [.value] then do
          skip
          blockPart fuel
        else pure .missing
      return (key, value) :: (← blockEntries fuel)
    | some .blockEnd =>
      skip
      return []
    | _ => failure

/-- The value in a flow collection, if its sign comes next. -/
def flowValue (ends : List Token) : Nat → NodeStep Node
  | 0 => failure
  | fuel + 1 => do
    if ← nextIsAmong [.value] then
      skip
      if ← nextIsAmong ends then return .missing
      node false false fuel
    else return .missing

/-- The items of a flow sequence and its end. An item can be a mapping of a single entry; when its
key is missing, the token after the sign of the key is passed over. -/
def flowItems (isFirst : Bool) : Nat → NodeStep (List Node)
  | 0 => failure
  | fuel + 1 => do
    if !(isFirst || (← nextIsAmong [.flowEntry, .flowSequenceEnd])) then failure
    if !isFirst && (← nextIsAmong [.flowEntry]) then skip
    match ← peek with
    | some .flowSequenceEnd =>
      skip
      return []
    | some .key =>
      skip
      let key ←
        if ← nextIsAmong [.value, .flowEntry, .flowSequenceEnd] then do
          skip
          pure .missing
        else node false false fuel
      let value ← flowValue [.flowEntry, .flowSequenceEnd] fuel
      return .mapping [(key, value)] :: (← flowItems false fuel)
    | _ =>
      let item ← node false false fuel
      return item :: (← flowItems false fuel)

/-- The entries of a flow mapping and its end. -/
def flowEntries (isFirst : Bool) : Nat → NodeStep (List (Node × Node))
  | 0 => failure
  | fuel + 1 => do
    if !(isFirst || (← nextIsAmong [.flowEntry, .flowMappingEnd])) then failure
    if !isFirst && (← nextIsAmong [.flowEntry]) then skip
    match ← peek with
    | some .flowMappingEnd =>
      skip
      return []
    | some .key =>
      skip
      let key ←
        if ← nextIsAmong [.value, .flowEntry, .flowMappingEnd] then pure .missing
        else node false false fuel
      let value ← flowValue [.flowEntry, .flowMappingEnd] fuel
      return (key, value) :: (← flowEntries false fuel)
    | _ =>
      let key ← node false false fuel
      return (key, .missing) :: (← flowEntries false fuel)

end

/-- The directives before a document. A second version, a version other than 1.1 and 1.2, and a
handle that is declared twice are faults. -/
def directives : Nat → Bool → NodeStep Unit
  | 0, _ => failure
  | fuel + 1, hasVersion => do
    match ← peek with
    | some (.versionDirective major minor) =>
      if hasVersion || major ≠ 1 || (minor ≠ 1 && minor ≠ 2) then failure
      skip
      directives fuel true
    | some (.tagDirective handle lead) =>
      let reader ← get
      if (reader.handles.lookup handle).isSome then failure
      set { reader with handles := (handle, lead) :: reader.handles }
      skip
      directives fuel hasVersion
    | _ => return

/-- The handles that need no declaration. -/
def defaultHandles : List (String × String) :=
  [("!", "!"), ("!!", "tag:yaml.org,2002:")]

/-- Declares the handles that need no declaration, after those that the document declares. -/
def declareDefaultHandles : NodeStep Unit :=
  modify fun reader => { reader with handles := reader.handles ++ defaultHandles }

/-- Whether the next token begins or ends a document. -/
def atDocumentEdge : NodeStep Bool := do
  match ← peek with
  | none | some .documentStart | some .documentEnd => return true
  | some (.versionDirective _ _) | some (.tagDirective _ _) => return true
  | _ => return false

/-- The node of the only document of a text. It may begin with directives and the mark of its
start, and after its end nothing may follow but marks of its end. -/
def onlyDocument (fuel : Nat) : NodeStep Node := do
  if (← peek).isNone then failure
  let isExplicit ← atDocumentEdge
  directives fuel false
  declareDefaultHandles
  let isMarked ← nextIsAmong [.documentStart]
  if isExplicit && !isMarked then failure
  if isMarked then skip
  let root ←
    if isMarked && (← atDocumentEdge) then pure .missing else node true false fuel
  modify fun reader => { reader with
    tokens := reader.tokens.dropWhile (· == .documentEnd) }
  if (← peek).isSome then failure
  return root

end NodeStep

/-- The only document of a text. Every level of the readers uses up a token or leads to one that
does within two levels. -/
def document? (text : String) : Option Document := do
  let tokens ← tokens? text
  let reader : NodeReader := ⟨tokens, [], [], [], []⟩
  let (root, reader) ← (NodeStep.onlyDocument (3 * tokens.length + 3)).run reader
  return ⟨root, reader.anchored, reader.numbered⟩

end Precedence.Yaml
