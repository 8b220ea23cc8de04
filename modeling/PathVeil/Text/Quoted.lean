import PathVeil.Text.Unprintable

/-!
# PathVeil.Text.Quoted

A text in double quotes, as it is shown in messages: quotes, backslashes and
everything that cannot be seen by itself are escaped.
-/

namespace PathVeil.Quoted

/-- The hexadecimal digits of a number. -/
def hex (n : Nat) : List Char := Nat.toDigits 16 n

/-- Whether a character is shown by its number. -/
def isHidden (c : Char) : Bool :=
  c.toNat < 0x20 || 0x7E < c.toNat
    && (CharClass.unprintable.contains c || CharClass.extending.contains c)

/-- One character inside the quotes. -/
def encodeChar (c : Char) : List Char :=
  match c with
  | '"' => ['\\', '"']
  | '\\' => ['\\', '\\']
  | '\t' => ['\\', 't']
  | '\r' => ['\\', 'r']
  | '\n' => ['\\', 'n']
  | '\x00' => ['\\', '0']
  | c => if isHidden c then "\\u\x7b".toList ++ hex c.toNat ++ ['}'] else [c]

/-- The text in quotes. -/
def encode (text : String) : String :=
  String.ofList ('"' :: text.toList.flatMap encodeChar ++ ['"'])

end PathVeil.Quoted
