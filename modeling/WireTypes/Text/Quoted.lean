/-!
# Quoted texts

The two quoted forms of the output: string literals in double quotes, escaped as in a JSON document,
and property names in single quotes, where the quote and the backslash are escaped.
-/

set_option autoImplicit false

namespace WireTypes.Text

/-- A digit of a hexadecimal numeral, in small letters. -/
def hexDigit (n : Nat) : Char :=
  if n < 10 then Char.ofNat (48 + n) else Char.ofNat (87 + n)

/-- A character between double quotes. Control characters below the space have a short escape or a
hexadecimal one; every character but these, the quote and the backslash stands for itself. -/
def escapeDouble (c : Char) : List Char :=
  match c with
  | '\x22' => ['\\', '\x22']
  | '\\' => ['\\', '\\']
  | '\x08' => ['\\', 'b']
  | '\x0c' => ['\\', 'f']
  | '\n' => ['\\', 'n']
  | '\r' => ['\\', 'r']
  | '\t' => ['\\', 't']
  | c =>
    if c.toNat < 0x20 then ['\\', 'u', '0', '0', hexDigit (c.toNat / 16), hexDigit (c.toNat % 16)]
    else [c]

/-- A string literal in double quotes. -/
def doubleQuoted (s : String) : String :=
  .ofList ('\x22' :: s.toList.flatMap escapeDouble ++ ['\x22'])

/-- A character between single quotes. -/
def escapeSingle (c : Char) : List Char :=
  if c = '\\' ∨ c = '\x27' then ['\\', c] else [c]

/-- A text in single quotes. -/
def singleQuoted (s : String) : String :=
  .ofList ('\x27' :: s.toList.flatMap escapeSingle ++ ['\x27'])

end WireTypes.Text
