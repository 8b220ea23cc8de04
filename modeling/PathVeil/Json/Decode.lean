import PathVeil.Json.Basic

/-!
# PathVeil.Json.Decode

Reading values of other types from JSON. A structure is read from an object, in
the ascending order of its keys, or from an array of its fields. The first
thing that does not fit is reported.
-/

namespace PathVeil.Json

/-- Why a JSON value was refused. -/
inductive Refusal where
  /-- A value of another kind than expected. -/
  | wrongType (found expected : String)
  /-- A value of the right kind that is out of bounds. -/
  | wrongValue (found expected : String)
  /-- An object without a field that it has to have. -/
  | missingField (name : String)
  /-- A word that is none of the expected ones. -/
  | unknownVariant (found expected : String)
  /-- An array with too few or too many items. -/
  | wrongLength (length : Nat) (expected : String)
  deriving DecidableEq, Repr

/-- The text of the refusal. -/
def Refusal.message : Refusal → String
  | .wrongType found expected => s!"invalid type: {found}, expected {expected}"
  | .wrongValue found expected => s!"invalid value: {found}, expected {expected}"
  | .missingField name => s!"missing field `{name}`"
  | .unknownVariant found expected => s!"unknown variant `{found}`, expected {expected}"
  | .wrongLength length expected => s!"invalid length {length}, expected {expected}"

/-- Reads a value of some type. -/
abbrev Reader (α : Type) := Json → Except Refusal α

/-- Refuses a value as one of another kind. -/
def refuse {α : Type} (expected : String) (json : Json) : Except Refusal α :=
  .error (.wrongType json.describe expected)

/-! ### Simple values -/

/-- Reads a text. -/
def asString : Reader String
  | .string text => .ok text
  | json => refuse "a string" json

/-- Reads a truth value. -/
def asBool : Reader Bool
  | .bool value => .ok value
  | json => refuse "a boolean" json

/-- Reads a count. -/
def asNat : Reader Nat
  | .integer value =>
    if value < 0 then .error (.wrongValue s!"integer `{value}`" "usize") else .ok value.toNat
  | json => refuse "usize" json

/-- Reads a list, item by item. -/
def asList {α : Type} (item : Reader α) : Reader (List α)
  | .array items => items.mapM item
  | json => refuse "a sequence" json

/-- Reads a value that may be absent. -/
def asOption {α : Type} (reader : Reader α) : Reader (Option α)
  | .null => .ok none
  | json => (reader json).map some

/-! ### Structures -/

/-- A field of a structure that is read into `α`: how a value for it is taken in,
and whether the structure can do without it. -/
structure Field (α : Type) where
  name : String
  required : Bool := false
  /-- Puts a value for the field into the structure. -/
  set : α → Reader α

/-- Reads the fields of an object in the given order, each if it is there. -/
def readFields {α : Type} (fields : List (String × Json)) (start : α) :
    List (Field α) → Except Refusal α
  | [] => .ok start
  | field :: others =>
    match get? fields field.name with
    | none => readFields fields start others
    | some json =>
      match field.set start json with
      | .error refusal => .error refusal
      | .ok next => readFields fields next others

/-- Reads the fields from the items of an array, in the order of declaration. -/
def readItems {α : Type} (title : String) (count index : Nat) (start : α) :
    List (Field α) → List Json → Except Refusal α
  | [], [] => .ok start
  | [], _ :: items =>
    .error (.wrongLength (index + 1 + items.length) "fewer elements in array")
  | field :: others, [] =>
    if (field :: others).any Field.required then
      let before := (field :: others).takeWhile (!·.required)
      .error (.wrongLength (index + before.length) s!"struct {title} with {count} elements")
    else .ok start
  | field :: others, json :: items =>
    match field.set start json with
    | .error refusal => .error refusal
    | .ok next => readItems title count (index + 1) next others items

/-- Reads a structure. `fields` come in the order of declaration; an object is
read in the order of their names. -/
def asStructure {α : Type} (title : String) (start : α) (fields : List (Field α)) : Reader α
  | .object values =>
    match readFields values start (fields.mergeSort fun a b => !(b.name < a.name)) with
    | .error refusal => .error refusal
    | .ok value =>
      match fields.find? fun field => field.required && (get? values field.name).isNone with
      | some field => .error (.missingField field.name)
      | none => .ok value
  | .array items => readItems title fields.length 0 start fields items
  | json => refuse s!"struct {title}" json

/-! ### Words -/

/-- Reads one of several words: as a text, or as the only key of an object whose
value is null. -/
def asVariant {α : Type} (expected : String) (ofName? : String → Option α) : Reader α
  | .string text => named text
  | .object [(key, value)] =>
    match named key, value with
    | .error refusal, _ => .error refusal
    | .ok variant, .null => .ok variant
    | .ok _, value => refuse "unit" value
  | .object _ => .error (.wrongValue "map" "map with a single key")
  | json => refuse "string or map" json
where
  /-- The meaning of a word. -/
  named (text : String) : Except Refusal α :=
    match ofName? text with
    | some value => .ok value
    | none => .error (.unknownVariant text expected)

end PathVeil.Json
