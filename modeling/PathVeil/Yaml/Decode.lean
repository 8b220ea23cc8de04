import PathVeil.Yaml.Node

/-!
# PathVeil.Yaml.Decode

Reading values of other types from the nodes of a document. A text may be any
scalar, whatever it looks like; an absent value is a plain one without a tag
that is empty or spells null; an empty plain scalar will do for a list or a
mapping.
-/

namespace PathVeil.Yaml

/-- Reads a value of some type from a node. -/
abbrev Reading (α : Type) := Document → Node → Except Error α

namespace Reading

/-- Fails because of what a node is not. -/
def refuse {α : Type} (expected : String) : Except Error α := .error ⟨s!"expected {expected}", {}⟩

/-- The node behind an alias. -/
def follow (document : Document) : Node → Node
  | .alias anchor => (document.resolve? anchor).getD .empty
  | node => node

/-- Tags of the simple types. -/
def nullTag : List Char := "tag:yaml.org,2002:null".toList
/-- The tag of truth values. -/
def boolTag : List Char := "tag:yaml.org,2002:bool".toList

/-- The spellings of null. -/
def isNull (text : List Char) : Bool := ["~", "null", "Null", "NULL"].contains (String.ofList text)

/-- The spellings of the truth values. -/
def truth? (text : List Char) : Option Bool :=
  let text := String.ofList text
  if ["true", "True", "TRUE"].contains text then some true
  else if ["false", "False", "FALSE"].contains text then some false
  else none

/-- Reads a text. -/
def text : Reading String := fun document node =>
  match follow document node with
  | .scalar text _ _ => .ok (String.ofList text)
  | _ => refuse "a string"

/-- Reads a truth value. -/
def bool : Reading Bool := fun document node =>
  match follow document node with
  | .scalar text style tag =>
    if style == .plain || style == .literal && tag == some boolTag then
      match truth? text with
      | some value => .ok value
      | none => refuse "a boolean"
    else refuse "a boolean"
  | _ => refuse "a boolean"

/-- Reads a value that may be absent. -/
def option {α : Type} (reading : Reading α) : Reading (Option α) := fun document node =>
  let present := (reading document (follow document node)).map some
  match follow document node with
  | .scalar text .plain none => if text.isEmpty || isNull text then .ok none else present
  | .scalar text .plain (some tag) =>
    if tag ≠ nullTag then present
    else if isNull text then .ok none
    else refuse "null"
  | _ => present

/-- Reads a list. -/
def list {α : Type} (reading : Reading α) : Reading (List α) := fun document node =>
  match follow document node with
  | .sequence items => items.mapM (reading document)
  | .scalar [] .plain _ => .ok []
  | _ => refuse "a sequence"

/-- A field of a structure: its name, and how a value is put in. -/
structure Field (α : Type) where
  name : String
  set : α → Reading α

/-- Reads the fields of a mapping one after another. A known field may occur once;
the values of unknown ones are not looked at. -/
def fields {α : Type} (document : Document) (known : List (Field α)) (seen : List String)
    (value : α) : List (Node × Node) → Except Error α
  | [] => .ok value
  | (key, node) :: entries => do
    let name ← text document key
    match known.find? (·.name == name) with
    | none => fields document known seen value entries
    | some field =>
      if seen.contains name then .error ⟨s!"duplicate field `{name}`", {}⟩
      else
        let value ← field.set value document node
        fields document known (name :: seen) value entries

/-- Reads a structure. -/
def record {α : Type} (start : α) (known : List (Field α)) : Reading α := fun document node =>
  match follow document node with
  | .mapping entries => fields document known [] start entries
  | .scalar [] .plain _ => .ok start
  | _ => refuse "a mapping"

end Reading

end PathVeil.Yaml
