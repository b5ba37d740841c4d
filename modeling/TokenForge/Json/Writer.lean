import TokenForge.Json.Value
import TokenForge.Number.Text

/-!
# JSON text without spaces

`Value.compact` writes a value with nothing between its tokens. In strings only what JSON forbids to
stand for itself is escaped: the quote, the backslash and the controls below the space, the five
with a short escape in that form. Every other character, `/` and `U+007F` among them, is written as
it is.

* `realFormat` — where JSON numbers turn to an exponent;
* `Number.chars`, `stringChars`, `Value.chars` — the characters of a number, a string, a value.
-/

namespace TokenForge.Json

/-- Numbers from `0.00001` up to but not including `10 ^ 16` are written positionally. -/
def realFormat : RealFormat := { least := -5, greatest := 15 }

def Number.chars : Number → List Char
  | .whole n => intDigits n.val
  | .real x => realFormat.write x

/-- A digit of base 16, in lower case. -/
def hexDigit (n : Nat) : Char := Nat.digitChar n

/-- **One character of a string as JSON text.** -/
def escape (c : Char) : List Char :=
  if c = '"' then ['\\', '"']
  else if c = '\\' then ['\\', '\\']
  else if 0x20 ≤ c.toNat then [c]
  else if c = '\x08' then ['\\', 'b']
  else if c = '\x09' then ['\\', 't']
  else if c = '\x0a' then ['\\', 'n']
  else if c = '\x0c' then ['\\', 'f']
  else if c = '\x0d' then ['\\', 'r']
  else ['\\', 'u', '0', '0', hexDigit (c.toNat / 16), hexDigit (c.toNat % 16)]

/-- A string as JSON text, quotes included. -/
def stringChars (s : String) : List Char := '"' :: s.toList.flatMap escape ++ ['"']

mutual

/-- **The characters of a value's compact text.** -/
def Value.chars : Value → List Char
  | .null => ['n', 'u', 'l', 'l']
  | .bool true => ['t', 'r', 'u', 'e']
  | .bool false => ['f', 'a', 'l', 's', 'e']
  | .number n => n.chars
  | .string s => stringChars s
  | .array [] => ['[', ']']
  | .array (v :: vs) => '[' :: v.chars ++ moreItems vs
  | .object [] => ['\x7b', '\x7d']
  | .object ((k, v) :: ms) => '\x7b' :: stringChars k ++ ':' :: v.chars ++ moreMembers ms

/-- What follows an item of an array, up to the closing bracket. -/
def moreItems : List Value → List Char
  | [] => [']']
  | v :: vs => ',' :: v.chars ++ moreItems vs

/-- What follows a member of an object, up to the closing brace. -/
def moreMembers : Members → List Char
  | [] => ['\x7d']
  | (k, v) :: ms => ',' :: stringChars k ++ ':' :: v.chars ++ moreMembers ms

end

def Value.compact (v : Value) : String := String.ofList v.chars

end TokenForge.Json
