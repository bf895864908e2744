import ScenePreview.Yaml.Token.Scan

/-!
# Nodes of YAML

The content of a document as a tree. An alias is kept as the number of a slot, and the slots
beside the tree say which node each number stands for.

A slot is numbered by how many different anchor names came before it. An anchor name that is
used again therefore takes a new slot, which the next anchor may take over.

## Main definitions

* `Node`, `Document` — the tree, and the tree with its slots.
* `Builder` — builds nodes from tokens.
* `Document.parse?` — the only document of a stream.
-/

namespace ScenePreview.Yaml

/-- The content of a document. -/
inductive Node where
  /-- A scalar with its tag, if it has one. -/
  | scalar (text : String) (style : Style) (tag : Option Tag)
  /-- A sequence. -/
  | sequence (items : List Node)
  /-- A mapping. -/
  | mapping (entries : List (Node × Node))
  /-- A reference to a slot. -/
  | alias (slot : Nat)
  deriving Repr, Inhabited

/-- The scalar that stands where nothing is written. -/
def Node.empty : Node := .scalar "" .plain none

/-- A document: its content and the nodes that its aliases stand for. -/
structure Document where
  /-- The content. -/
  root : Node
  /-- The slots with their nodes. -/
  slots : List (Nat × Node) := []
  deriving Repr

/-- The node that an alias stands for; any other node stands for itself. -/
def Document.resolve? (d : Document) : Node → Option Node
  | .alias slot => (d.slots.find? (·.1 == slot)).map (·.2)
  | n => some n

/-! ### Building nodes -/

/-- The state between two nodes. -/
structure Builder where
  /-- The tokens that are left. -/
  tokens : List Token
  /-- The handles and what they stand for. -/
  handles : List (Tag × Tag) := []
  /-- The anchor names with their slots. -/
  anchors : List (String × Nat) := []
  /-- How many nodes have an anchor. -/
  count : Nat := 0
  /-- The slots, newest first, with the anchored nodes by their number. -/
  owners : List (Nat × Nat) := []
  /-- The anchored nodes with their number. -/
  anchored : List (Nat × Node) := []

/-- Builds a part of a document, or fails. -/
abbrev Build := StateT Builder Option

namespace Build

/-- The next token, which stays. -/
def peek : Build Token := do
  match (← get).tokens with
  | t :: _ => return t
  | [] => failure

/-- Skips a token. -/
def skip : Build Unit := modify fun b => { b with tokens := b.tokens.drop 1 }

/-- The handles of every document: one for local tags and one for those of the standard. -/
def standardHandles : List (Tag × Tag) :=
  [([33], [33]), ([33, 33], Text.Utf8.encode "tag:yaml.org,2002:")]

/-- The tag that a handle and a suffix spell. -/
def resolveTag (handle suffix : Tag) : Build Tag := do
  if handle = [] then return suffix
  match (← get).handles.find? (·.1 == handle) with
  | some (_, start) => return start ++ suffix
  | none => failure

/-- Gives an anchor a slot, and its node a number. -/
def register (name : String) : Build Nat := do
  let b ← get
  let slot := b.anchors.length
  let others := b.anchors.filter (·.1 != name)
  set { b with
    anchors := (name, slot) :: others
    count := b.count + 1
    owners := (slot, b.count) :: b.owners }
  return b.count

/-- Reads the anchor and the tag before a node, in either order, each at most once. -/
def properties : Build (Option String × Option (Tag × Tag)) := do
  match ← peek with
  | .anchor name =>
    skip
    match ← peek with
    | .tag h s => skip; return (some name, some (h, s))
    | _ => return (some name, none)
  | .tag h s =>
    skip
    match ← peek with
    | .anchor name => skip; return (some name, some (h, s))
    | _ => return (none, some (h, s))
  | _ => return (none, none)

/-- Whether a token ends a value in a block mapping. -/
def endsBlockValue : Token → Bool
  | .key => true
  | .value => true
  | .blockEnd => true
  | _ => false

mutual

/-- Builds a node. Blocks are allowed outside of flow collections, and a sequence that is not
indented in the value of a block mapping. -/
def node : Nat → Bool → Bool → Build Node
  | 0, _, _ => failure
  | fuel + 1, inBlock, unindented => do
    match ← peek with
    | .alias name =>
      match (← get).anchors.find? (·.1 == name) with
      | some (_, slot) => skip; return .alias slot
      | none => failure
    | _ =>
      let (anchor, short) ← properties
      let tag ← match short with
        | some (h, s) => some <$> resolveTag h s
        | none => pure none
      let number ← match anchor with
        | some name => some <$> register name
        | none => pure none
      let n ← content fuel inBlock unindented tag (anchor.isSome || tag.isSome)
      match number with
      | some k => modify fun b => { b with anchored := (k, n) :: b.anchored }
      | none => pure ()
      return n

/-- Builds a node after its anchor and tag. Only a node that has one of them may be empty. -/
def content : Nat → Bool → Bool → Option Tag → Bool → Build Node
  | 0, _, _, _, _ => failure
  | fuel + 1, inBlock, unindented, tag, mayBeEmpty => do
    match ← peek with
    | .scalar text style =>
      skip
      return .scalar text style (if tag = some [33] then none else tag)
    | .flowSequenceStart => skip; return .sequence (← flowItems fuel true)
    | .flowMappingStart => skip; return .mapping (← flowEntries fuel true)
    | .blockEntry =>
      if unindented then return .sequence (← unindentedItems fuel)
      else if mayBeEmpty then return .scalar "" .plain tag
      else failure
    | t =>
      if inBlock && t == .blockSequenceStart then
        skip
        return .sequence (← blockItems fuel)
      else if inBlock && t == .blockMappingStart then
        skip
        return .mapping (← blockEntries fuel)
      else if mayBeEmpty then return .scalar "" .plain tag
      else failure

/-- Builds the items of a block sequence. -/
def blockItems : Nat → Build (List Node)
  | 0 => failure
  | fuel + 1 => do
    match ← peek with
    | .blockEntry =>
      skip
      let t ← peek
      let n ← if t == .blockEntry || t == .blockEnd then pure .empty else node fuel true false
      return n :: (← blockItems fuel)
    | .blockEnd => skip; return []
    | _ => failure

/-- Builds the items of a sequence that is not indented. -/
def unindentedItems : Nat → Build (List Node)
  | 0 => failure
  | fuel + 1 => do
    match ← peek with
    | .blockEntry =>
      skip
      let t ← peek
      let n ← if t == .blockEntry || endsBlockValue t then pure .empty else node fuel true false
      return n :: (← unindentedItems fuel)
    | _ => return []

/-- Builds the entries of a block mapping. -/
def blockEntries : Nat → Build (List (Node × Node))
  | 0 => failure
  | fuel + 1 => do
    match ← peek with
    | .key =>
      skip
      let k ← if endsBlockValue (← peek) then pure .empty else node fuel true true
      let v ← blockValue fuel
      return (k, v) :: (← blockEntries fuel)
    | .blockEnd => skip; return []
    | _ => failure

/-- Builds the value of an entry of a block mapping. -/
def blockValue : Nat → Build Node
  | 0 => failure
  | fuel + 1 => do
    match ← peek with
    | .value =>
      skip
      if endsBlockValue (← peek) then return .empty else node fuel true true
    | _ => return .empty

/-- Builds the items of a flow sequence. An item with a key is a mapping of its own. -/
def flowItems : Nat → Bool → Build (List Node)
  | 0, _ => failure
  | fuel + 1, first => do
    if (← peek) == .flowSequenceEnd then
      skip
      return []
    if !first then
      if (← peek) == .flowEntry then skip else failure
    match ← peek with
    | .key =>
      skip
      let k ← pairKey fuel
      let v ← pairValue fuel
      return .mapping [(k, v)] :: (← flowItems fuel false)
    | .flowSequenceEnd => skip; return []
    | _ =>
      let n ← node fuel false false
      return n :: (← flowItems fuel false)

/-- Builds the key of a mapping that is an item of a flow sequence. Where there is none, the
token in its place is lost. -/
def pairKey : Nat → Build Node
  | 0 => failure
  | fuel + 1 => do
    match ← peek with
    | .value => skip; return .empty
    | .flowEntry => skip; return .empty
    | .flowSequenceEnd => skip; return .empty
    | _ => node fuel false false

/-- Builds the value of a mapping that is an item of a flow sequence. -/
def pairValue : Nat → Build Node
  | 0 => failure
  | fuel + 1 => do
    match ← peek with
    | .value =>
      skip
      let t ← peek
      if t == .flowEntry || t == .flowSequenceEnd then return .empty else node fuel false false
    | _ => return .empty

/-- Builds the entries of a flow mapping. -/
def flowEntries : Nat → Bool → Build (List (Node × Node))
  | 0, _ => failure
  | fuel + 1, first => do
    if (← peek) == .flowMappingEnd then
      skip
      return []
    if !first then
      if (← peek) == .flowEntry then skip else failure
    match ← peek with
    | .key =>
      skip
      let t ← peek
      let k ← if t == .value || t == .flowEntry || t == .flowMappingEnd then pure .empty
        else node fuel false false
      let v ← flowValue fuel
      return (k, v) :: (← flowEntries fuel false)
    | .flowMappingEnd => skip; return []
    | _ =>
      let k ← node fuel false false
      return (k, .empty) :: (← flowEntries fuel false)

/-- Builds the value of an entry of a flow mapping. -/
def flowValue : Nat → Build Node
  | 0 => failure
  | fuel + 1 => do
    match ← peek with
    | .value =>
      skip
      let t ← peek
      if t == .flowEntry || t == .flowMappingEnd then return .empty else node fuel false false
    | _ => return .empty

end

/-! ### Documents -/

/-- Reads the directives before a document: the version at most once, and only one that is
known; each handle at most once. -/
def directives : Nat → Bool → List (Tag × Tag) → Build (List (Tag × Tag))
  | 0, _, _ => failure
  | fuel + 1, versioned, handles => do
    match ← peek with
    | .version major minor =>
      if versioned || major ≠ 1 || (minor ≠ 1 && minor ≠ 2) then failure
      skip
      directives fuel true handles
    | .tagHandle h s =>
      if handles.any (·.1 == h) then failure
      skip
      directives fuel versioned (handles ++ [(h, s)])
    | _ => return handles

/-- Whether a token stands where the content of a document is left out. -/
def endsDocument : Token → Bool
  | .version .. => true
  | .tagHandle .. => true
  | .documentStart => true
  | .documentEnd => true
  | .streamEnd => true
  | _ => false

/-- Builds the content of a document. -/
def documentContent (fuel : Nat) : Build Node := do
  match ← peek with
  | .version .. | .tagHandle .. | .documentStart =>
    let handles ← directives fuel false []
    modify fun b => { b with handles := handles ++ standardHandles }
    if (← peek) ≠ .documentStart then failure
    skip
    if endsDocument (← peek) then return .empty else node fuel true false
  | .streamEnd => return .empty
  | _ =>
    modify fun b => { b with handles := standardHandles }
    node fuel true false

/-- Skips the marks of a document's end. -/
def skipDocumentEnds : Nat → Build Unit
  | 0 => failure
  | fuel + 1 => do
    if (← peek) == .documentEnd then
      skip
      skipDocumentEnds fuel

/-- Builds the only document of a stream. -/
def document (fuel : Nat) : Build Node := do
  let n ← documentContent fuel
  skipDocumentEnds fuel
  if (← peek) ≠ .streamEnd then failure
  return n

end Build

/-- The node of each slot: the one that took the slot last. -/
def Builder.slots (b : Builder) : List (Nat × Node) :=
  b.owners.filterMap fun (slot, number) =>
    (b.anchored.find? (·.1 == number)).map fun (_, n) => (slot, n)

namespace Document

/-- The document of a list of tokens. -/
def ofTokens? (ts : List Token) : Option Document :=
  (Build.document (4 * ts.length + 16) { tokens := ts }).map fun (root, b) => ⟨root, b.slots⟩

/-- The only document of a stream. -/
def parse? (s : String) : Option Document := (scan? s.toList).bind ofTokens?

end Document

end ScenePreview.Yaml
