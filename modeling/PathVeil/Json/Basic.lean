import PathVeil.Decimal.Shortest
import PathVeil.Text.Quoted

/-!
# PathVeil.Json.Basic

JSON values, their printed form, and what a message calls them.
-/

namespace PathVeil

/-- A JSON value. An object has each key once. -/
inductive Json where
  | null
  | bool (value : Bool)
  | integer (value : Int)
  /-- A number that was not written as an integer, or is too large for one. -/
  | real (value : Decimal)
  | string (text : String)
  | array (items : List Json)
  | object (fields : List (String × Json))
  deriving Repr, Inhabited

namespace Json

/-! ### In messages -/

/-- What a message calls the value. -/
def describe : Json → String
  | .null => "null"
  | .bool value => s!"boolean `{value}`"
  | .integer value => s!"integer `{value}`"
  | .real value => s!"floating point `{value.text}`"
  | .string text => s!"string {Quoted.encode text}"
  | .array _ => "sequence"
  | .object _ => "map"

/-- The value of a key. -/
def get? (fields : List (String × Json)) (key : String) : Option Json :=
  (fields.find? (·.1 == key)).map (·.2)

/-! ### Printing -/

/-- A character in a printed string. -/
def encodeChar (c : Char) : List Char :=
  match c with
  | '"' => ['\\', '"']
  | '\\' => ['\\', '\\']
  | '\x08' => ['\\', 'b']
  | '\x0c' => ['\\', 'f']
  | '\n' => ['\\', 'n']
  | '\r' => ['\\', 'r']
  | '\t' => ['\\', 't']
  | c =>
    if c.toNat < 0x20 then
      "\\u00".toList ++ [Nat.digitChar (c.toNat / 16), Nat.digitChar (c.toNat % 16)]
    else [c]

/-- A printed string. -/
def quote (text : String) : String :=
  String.ofList ('"' :: text.toList.flatMap encodeChar ++ ['"'])

/-- The space in front of a line. -/
def indentation (depth : Nat) : String := String.ofList (List.replicate (2 * depth) ' ')

/-- Items on lines of their own between two brackets, or the bare brackets. -/
def block (opening closing : String) (depth : Nat) (items : List String) : String :=
  if items.isEmpty then opening ++ closing
  else
    opening ++ "\n"
      ++ ",\n".intercalate (items.map (indentation (depth + 1) ++ ·))
      ++ "\n" ++ indentation depth ++ closing

mutual

/-- The value on several lines, indented by two spaces per level. -/
def pretty (depth : Nat) : Json → String
  | .null => "null"
  | .bool value => toString value
  | .integer value => toString value
  | .real value => value.text
  | .string text => quote text
  | .array items => block "[" "]" depth (prettyItems (depth + 1) items)
  | .object fields => block "\x7b" "\x7d" depth (prettyFields (depth + 1) fields)

/-- The printed items of an array. -/
def prettyItems (depth : Nat) : List Json → List String
  | [] => []
  | item :: items => pretty depth item :: prettyItems depth items

/-- The printed fields of an object. -/
def prettyFields (depth : Nat) : List (String × Json) → List String
  | [] => []
  | (key, value) :: fields =>
    (quote key ++ ": " ++ pretty depth value) :: prettyFields depth fields

end

end Json

end PathVeil
