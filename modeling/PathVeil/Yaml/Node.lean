import PathVeil.Yaml.Token

/-!
# PathVeil.Yaml.Node

The content of a YAML document as a tree, built from tokens. Block collections
begin and end with tokens of their own, save for sequences that stand directly
below a key at its indentation; flow collections are bracketed. Where a node is
left out, there is an empty plain scalar.

An alias names an anchor that was set before it. Anchors are counted as they
are set, an anchor that is set again takes the next free number, and the node
that was last given a number is the one its aliases stand for.
-/

namespace PathVeil.Yaml

/-- A node of a document. -/
inductive Node where
  /-- A text, how it was written, and its tag. -/
  | scalar (text : List Char) (style : Style) (tag : Option (List Char))
  | sequence (items : List Node)
  | mapping (entries : List (Node × Node))
  /-- The node with a certain anchor. -/
  | alias (anchor : Nat)
  deriving Repr, Inhabited

/-- The node that stands where there is none. -/
def Node.empty : Node := .scalar [] .plain none

/-- A setting of an anchor. -/
structure Anchored where
  /-- The number of the anchor. -/
  anchor : Nat
  /-- The number of settings before this one. -/
  order : Nat
  node : Node
  deriving Repr, Inhabited

/-- A document. -/
structure Document where
  root : Node
  anchored : List Anchored := []
  deriving Repr, Inhabited

/-- The node an anchor stands for: the one it was set to last. -/
def Document.resolve? (document : Document) (anchor : Nat) : Option Node :=
  let settings := document.anchored.filter (·.anchor == anchor)
  (settings.foldl (fun (best : Option Anchored) setting =>
    match best with
    | none => some setting
    | some other => if other.order < setting.order then some setting else best) none).map
      Anchored.node

/-! ### Building -/

/-- What has been read of a document. -/
structure Builder where
  /-- The tokens that are left. -/
  tokens : List (Token × Mark)
  /-- The tag handles, each with the beginning of the tags it stands for. -/
  handles : List (List Char × List Char)
  /-- The names of the anchors so far, each with its number. -/
  names : List (List Char × Nat) := []
  /-- The number of settings of anchors so far. -/
  settings : Nat := 0
  anchored : List Anchored := []

namespace Builder

/-- A step that reads something. -/
abbrev Read (α : Type) := StateT Builder (Except Error) α

/-- The next token, without passing over it. -/
def peek : Read Token := do return ((← get).tokens.head?.map (·.1)).getD .streamEnd

/-- Passes over a token. -/
def skip : Read Unit := modify fun b => { b with tokens := b.tokens.tail }

/-- Fails at the next token. -/
def fail {α : Type} (problem : String) : Read α := do
  throw ⟨problem, ((← get).tokens.head?.map (·.2)).getD {}⟩

/-- Sets an anchor: gives its number and the number of this setting. -/
def setAnchor (name : List Char) : Read (Nat × Nat) := do
  let b ← get
  let known := b.names.filter (·.1 ≠ name)
  let anchor := b.names.length
  let order := b.settings
  set { b with names := (name, anchor) :: known, settings := order + 1 }
  return (anchor, order)

/-- The full text of a tag. -/
def fullTag (handle suffix : List Char) : Read (List Char) := do
  if handle.isEmpty then return suffix
  match (← get).handles.find? (·.1 = handle) with
  | some (_, start) => return start ++ suffix
  | none => fail "found undefined tag handle"

/-- The anchor and the tag in front of a node, in either order. -/
def properties : Read (Option (List Char) × Option (List Char)) := do
  match ← peek with
  | .anchor name =>
    skip
    match ← peek with
    | .tag handle suffix =>
      skip
      return (some name, some (← fullTag handle suffix))
    | _ => return (some name, none)
  | .tag handle suffix =>
    skip
    match ← peek with
    | .anchor name =>
      skip
      return (some name, some (← fullTag handle suffix))
    | _ => return (none, some (← fullTag handle suffix))
  | _ => return (none, none)

/-- The tag of a scalar that is not left out: `!` alone says nothing. -/
def scalarTag (tag : Option (List Char)) : Option (List Char) :=
  if tag = some ['!'] || tag = some [] then none else tag

/-- Whether a node is left out in front of a token, inside a block sequence. -/
def endsEntry : Token → Bool
  | .blockEntry | .blockEnd => true
  | _ => false

/-- Whether a node is left out in front of a token, inside a block mapping. -/
def endsField : Token → Bool
  | .key | .value | .blockEnd => true
  | _ => false

/-- Whether a node is left out in front of a token, inside a flow sequence. -/
def endsItem : Token → Bool
  | .flowEntry | .flowSequenceEnd => true
  | _ => false

/-- Whether a node is left out in front of a token, inside a flow mapping. -/
def endsFlowField : Token → Bool
  | .flowEntry | .flowMappingEnd => true
  | _ => false

mutual

/-- Reads a node. Block collections are possible where `block` says so, and
sequences without brackets where `unbracketed` does. -/
def node (block unbracketed : Bool) : Nat → Read Node
  | 0 => fail "document too deep"
  | fuel + 1 => do
    match ← peek with
    | .alias name =>
      match (← get).names.find? (·.1 = name) with
      | some (_, anchor) =>
        skip
        return .alias anchor
      | none => fail "unknown anchor"
    | _ =>
      let (name, tag) ← properties
      let setting ← match name with
        | some name => some <$> setAnchor name
        | none => pure none
      let content ← match ← peek with
        | .blockEntry =>
          if unbracketed then .sequence <$> unbracketedEntries fuel
          else bare block name tag
        | .scalar text style =>
          skip
          pure (.scalar text style (scalarTag tag))
        | .flowSequenceStart =>
          skip
          .sequence <$> flowItems true fuel
        | .flowMappingStart =>
          skip
          .mapping <$> flowFields true fuel
        | .blockSequenceStart =>
          if block then
            skip
            .sequence <$> blockEntries fuel
          else bare block name tag
        | .blockMappingStart =>
          if block then
            skip
            .mapping <$> blockFields fuel
          else bare block name tag
        | _ => bare block name tag
      if let some (anchor, order) := setting then
        modify fun b => { b with anchored := ⟨anchor, order, content⟩ :: b.anchored }
      return content

/-- A node without content: an anchor or a tag makes it an empty scalar. -/
def bare (block : Bool) (name tag : Option (List Char)) : Read Node :=
  let kind := if block then "block" else "flow"
  if name.isSome || tag.isSome then return .scalar [] .plain tag
  else fail s!"did not find expected node content while parsing a {kind} node"

/-- Reads the entries of a block sequence, to its end. -/
def blockEntries : Nat → Read (List Node)
  | 0 => fail "document too long"
  | fuel + 1 => do
    match ← peek with
    | .blockEntry =>
      skip
      let item ← if endsEntry (← peek) then pure .empty else node true false fuel
      return item :: (← blockEntries fuel)
    | .blockEnd =>
      skip
      return []
    | _ => fail "did not find expected '-' indicator"

/-- Reads the entries of a sequence that has no end of its own. -/
def unbracketedEntries : Nat → Read (List Node)
  | 0 => fail "document too long"
  | fuel + 1 => do
    match ← peek with
    | .blockEntry =>
      skip
      let next ← peek
      let item ← if endsEntry next || endsField next then pure .empty else node true false fuel
      return item :: (← unbracketedEntries fuel)
    | _ => return []

/-- Reads the fields of a block mapping, to its end. -/
def blockFields : Nat → Read (List (Node × Node))
  | 0 => fail "document too long"
  | fuel + 1 => do
    match ← peek with
    | .key =>
      skip
      let key ← if endsField (← peek) then pure .empty else node true true fuel
      let value ← blockValue fuel
      return (key, value) :: (← blockFields fuel)
    | .blockEnd =>
      skip
      return []
    | _ => fail "did not find expected key"

/-- Reads the value of a block mapping's field, if there is one. -/
def blockValue : Nat → Read Node
  | 0 => fail "document too deep"
  | fuel + 1 => do
    match ← peek with
    | .value =>
      skip
      if endsField (← peek) then return .empty else node true true fuel
    | _ => return .empty

/-- Reads the items of a flow sequence, to its end. A key among them makes a
mapping of one field. -/
def flowItems (first : Bool) : Nat → Read (List Node)
  | 0 => fail "document too long"
  | fuel + 1 => do
    if (← peek) = .flowSequenceEnd then
      skip
      return []
    if !first then
      if (← peek) = .flowEntry then skip else fail "did not find expected ',' or ']'"
    match ← peek with
    | .flowSequenceEnd =>
      skip
      return []
    | .key =>
      skip
      let field ← singleField fuel
      return .mapping [field] :: (← flowItems false fuel)
    | _ =>
      let item ← node false false fuel
      return item :: (← flowItems false fuel)

/-- Reads a mapping of one field inside a flow sequence. Where its key is left
out, so is whatever stands in its place. -/
def singleField : Nat → Read (Node × Node)
  | 0 => fail "document too deep"
  | fuel + 1 => do
    let next ← peek
    let key ← if next = .value || endsItem next then
        skip
        pure .empty
      else node false false fuel
    let value ← match ← peek with
      | .value =>
        skip
        if endsItem (← peek) then pure .empty else node false false fuel
      | _ => pure .empty
    return (key, value)

/-- Reads the fields of a flow mapping, to its end. -/
def flowFields (first : Bool) : Nat → Read (List (Node × Node))
  | 0 => fail "document too long"
  | fuel + 1 => do
    if (← peek) = .flowMappingEnd then
      skip
      return []
    if !first then
      if (← peek) = .flowEntry then skip else fail "did not find expected ',' or '\x7d'"
    match ← peek with
    | .flowMappingEnd =>
      skip
      return []
    | .key =>
      skip
      let next ← peek
      let key ← if next = .value || endsFlowField next then pure .empty else node false false fuel
      let value ← flowValue fuel
      return (key, value) :: (← flowFields false fuel)
    | _ =>
      let key ← node false false fuel
      return (key, .empty) :: (← flowFields false fuel)

/-- Reads the value of a flow mapping's field, if there is one. -/
def flowValue : Nat → Read Node
  | 0 => fail "document too deep"
  | fuel + 1 => do
    match ← peek with
    | .value =>
      skip
      if endsFlowField (← peek) then return .empty else node false false fuel
    | _ => return .empty

end

/-! ### Documents -/

/-- The tag handles that need no directive. -/
def standardHandles : List (List Char × List Char) :=
  [("!".toList, "!".toList), ("!!".toList, "tag:yaml.org,2002:".toList)]

/-- Reads the directives in front of a document. Each may occur once, and the only
version is 1.1. -/
def directives (versioned : Bool) : Nat → Read Unit
  | 0 => fail "too many directives"
  | fuel + 1 => do
    match ← peek with
    | .versionDirective major minor =>
      if versioned then fail "found duplicate %YAML directive"
      else if major ≠ 1 || minor ≠ 1 then fail "found incompatible YAML document"
      else
        skip
        directives true fuel
    | .tagDirective handle start =>
      if (← get).handles.any (·.1 = handle) then fail "found duplicate %TAG directive"
      else
        modify fun b => { b with handles := b.handles ++ [(handle, start)] }
        skip
        directives versioned fuel
    | _ => return ()

/-- Passes over the marks at the end of a document. -/
def documentEnds : Nat → Read Unit
  | 0 => return ()
  | fuel + 1 => do
    if (← peek) = .documentEnd then
      skip
      documentEnds fuel

/-- Whether a document has no content in front of a token. -/
def endsDocument : Token → Bool
  | .versionDirective .. | .tagDirective .. | .documentStart | .documentEnd | .streamEnd => true
  | _ => false

/-- Reads the only document of a stream, if there is one. -/
def document (fuel : Nat) : Read (Option Node) := do
  match ← peek with
  | .streamEnd => return none
  | .versionDirective .. | .tagDirective .. | .documentStart =>
    directives false fuel
    if (← peek) ≠ .documentStart then fail "did not find expected <document start>"
    skip
    modify fun b => { b with handles := b.handles ++ standardHandles }
    let root ← if endsDocument (← peek) then pure .empty else node true false fuel
    finish root
  | _ =>
    modify fun b => { b with handles := standardHandles }
    finish (← node true false fuel)
where
  /-- Checks that nothing follows the document. -/
  finish (root : Node) : Read (Option Node) := do
    documentEnds fuel
    if (← peek) = .streamEnd then return some root
    else fail "did not find expected <document start>"

end Builder

/-- The document of a text. A text without content has none. -/
def Document.ofText (text : List Char) : Except Error (Option Document) := do
  let tokens ← Token.ofText text
  let fuel := 4 * tokens.length + 8
  let (root, builder) ← (Builder.document fuel).run { tokens, handles := [] }
  return root.map ({ root := ·, anchored := builder.anchored })

end PathVeil.Yaml
