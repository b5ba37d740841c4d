import TokenForge.Pattern.Mode

/-!
# Escapes in a pattern

What a backslash and the characters after it stand for.

* `Atom` — one thing that a pattern matches or asks for;
* `readEscape` — the atom after a backslash;
* `Atom.isAllowed` — whether an atom can be matched in a mode.

There are no tables of the classes and cases of all characters, so where characters are matched, a
shorthand or a letter without case is refused; and where bytes are matched, so is what could match a
part of a character. Whether a word ends at some place is known for words of ASCII alone.
-/

namespace TokenForge.Pattern

/-- One thing that a pattern matches or asks for. -/
inductive Atom where
  /-- A character, which may be given as a byte. -/
  | literal (c : Char) (isByte : Bool)
  /-- The shorthand for a class of digits, blanks or word characters, or for all but these. -/
  | shorthand (isNegated : Bool)
  /-- A place, such as the end; it may be one where a word begins or ends. -/
  | place (ofWord : Bool)
  deriving DecidableEq, Repr

/-- Whether an atom stands for itself or for a place that can be found. -/
def Atom.isAllowed (m : Mode) : Atom → Bool
  | .literal c isByte => if m.isWide then !m.ignoresCase else !isByte || c.toNat < 0x80
  | .shorthand isNegated => !m.isWide && !isNegated
  | .place ofWord => !(ofWord && m.isWide)

/-! ### Numbers of characters -/

def hexValue? (c : Char) : Option Nat :=
  if '0' ≤ c ∧ c ≤ '9' then some (c.toNat - '0'.toNat)
  else if 'a' ≤ c ∧ c ≤ 'f' then some (c.toNat - 'a'.toNat + 10)
  else if 'A' ≤ c ∧ c ≤ 'F' then some (c.toNat - 'A'.toNat + 10)
  else none

/-- The number that so many digits spell after `value`, and the rest. -/
def readHex (m : Mode) : Nat → Nat → List Char → Option (Nat × List Char)
  | 0, value, text => some (value, text)
  | n + 1, value, text =>
    match m.skip text with
    | [] => none
    | c :: rest => (hexValue? c).bind fun d => readHex m n (value * 16 + d) rest

/-- **The character whose number so many digits spell**, and the rest. -/
def readNumbered (m : Mode) (size : Nat) (isByte : Bool) (text : List Char) :
    Option (Atom × List Char) :=
  (readHex m size 0 text).bind fun (n, rest) =>
    if n.isValidChar then some (.literal (Char.ofNat n) isByte, rest) else none

/-! ### Escapes -/

/-- The letters for control characters. -/
def controls : List (Char × Char) :=
  [('a', '\x07'), ('f', '\x0C'), ('t', '\t'), ('n', '\n'), ('r', '\r'), ('v', '\x0B')]

/-- The atom that one character after a backslash stands for. A mark of ASCII stands for itself. -/
def ofEscaped (c : Char) : Option Atom :=
  if ['d', 's', 'w'].contains c then some (.shorthand false)
  else if ['D', 'S', 'W'].contains c then some (.shorthand true)
  else if ['A', 'z'].contains c then some (.place false)
  else if ['b', 'B', '<', '>'].contains c then some (.place true)
  else if c.toNat < 0x80 && !c.isAlphanum then some (.literal c false)
  else (controls.lookup c).map fun control => .literal control false

/-- **The atom after a backslash, and the rest.** -/
def readEscape (m : Mode) : List Char → Option (Atom × List Char)
  | [] => none
  | 'x' :: rest => readNumbered m 2 true rest
  | 'u' :: rest => readNumbered m 4 false rest
  | 'U' :: rest => readNumbered m 8 false rest
  | c :: rest => (ofEscaped c).map fun atom => (atom, rest)

end TokenForge.Pattern
