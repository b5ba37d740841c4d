import TokenForge.Json.Numeral

/-!
# The language of JSON texts

What a JSON text is and what it says, stated as relations between a text and what it spells, with
no reader in sight. A text spells a *plain* value: an object holds its members as they stand in the
text, a repeated key with each of its values.

* `Literal` — a number as it is spelled, and `Literal.number?`, the number it stands for;
* `SpellsChars` and `SpellsString` — the inside of a string, and a string;
* `Spells` — a value, and `SpellsPadded`, a value with white space around it, which is what a whole
  text is.

A number has two readings. A numeral without point and exponent that stands for an integer of 64
bits is that integer, unless it is a negative zero. Every other one is a binary64 number, from the
digits that fit in 64 bits (`gather`) and one rounded multiplication or division by a power of ten
(`assemble`); where that is not finite, the numeral stands for no number and spells nothing.
-/

namespace TokenForge.Json

/-! ### White space -/

/-- Text of nothing but spaces, tabs, line feeds and carriage returns. -/
def Blank (w : List Char) : Prop := ∀ c ∈ w, c = ' ' ∨ c = '\t' ∨ c = '\n' ∨ c = '\r'

/-! ### Numbers -/

abbrev Digit := Fin 10

def Digit.zero : Digit := ⟨0, Nat.succ_pos 9⟩

def Digit.char (d : Digit) : Char := Nat.digitChar d

def digitsText (ds : List Digit) : List Char := ds.map Digit.char

/-- The number that the digits of `n` with the digits `ds` after them stand for. -/
def extend (n : Nat) (ds : List Digit) : Nat := ds.foldl (fun n d => n * 10 + d.val) n

/-- The sign of an exponent as it is spelled. -/
inductive ExponentSign where
  | absent
  | plus
  | minus
  deriving DecidableEq, Repr

def ExponentSign.text : ExponentSign → List Char
  | .absent => []
  | .plus => ['+']
  | .minus => ['-']

/-- An exponent as it is spelled. -/
structure Exponent where
  /-- Whether the mark is a capital letter. -/
  capital : Bool
  sign : ExponentSign
  digits : List Digit
  digits_ne : digits ≠ [] := by decide
  deriving DecidableEq, Repr

namespace Exponent

def text (e : Exponent) : List Char :=
  (if e.capital then 'E' else 'e') :: e.sign.text ++ digitsText e.digits

/-- Whether an exponent lessens the number. -/
def down (e : Exponent) : Bool := e.sign = .minus

def size (e : Exponent) : Nat := extend 0 e.digits

end Exponent

/-- **A number as it is spelled.** -/
structure Literal where
  negative : Bool
  whole : List Digit
  /-- The digits after the point; there is no point if there are none. -/
  fraction : List Digit
  exponent : Option Exponent
  whole_ne : whole ≠ [] := by decide
  noLeadingZero : whole.head? = some .zero → whole = [.zero] := by decide
  deriving DecidableEq, Repr

/-- **The significand that the digits of `s` and then the digits `ds` make**, and the digits that
are left when the next one would not fit in 64 bits. -/
def gather (s : Nat) : List Digit → Nat × List Digit
  | [] => (s, [])
  | d :: ds => if s * 10 + d ≤ maxSignificand then gather (s * 10 + d) ds else (s, d :: ds)

namespace Literal

def signText (negative : Bool) : List Char := if negative then ['-'] else []

/-- The characters of the digits after the point, the point among them. -/
def fractionText (ds : List Digit) : List Char := if ds = [] then [] else '.' :: digitsText ds

def exponentText : Option Exponent → List Char
  | none => []
  | some e => e.text

/-- **The characters of a literal.** -/
def text (l : Literal) : List Char :=
  signText l.negative ++ digitsText l.whole ++ fractionText l.fraction ++ exponentText l.exponent

/-- The integer that the digits before the point and the sign stand for. -/
def integer (l : Literal) : Int :=
  if l.negative then -(extend 0 l.whole : Nat) else (extend 0 l.whole : Nat)

/-- **The integer a literal is kept as**: it has neither point nor exponent, and its integer is in
range and not written as a negative zero. -/
def kept? (l : Literal) : Option Whole :=
  if l.fraction = [] ∧ l.exponent = none ∧ ¬(l.negative = true ∧ l.integer = 0) then
    Whole.ofInt? l.integer
  else none

/-- The significand: digits before and after the point, as long as they fit. -/
def significand (l : Literal) : Nat := (gather (gather 0 l.whole).1 l.fraction).1

/-- The power of ten of the significand: a digit before the point that did not fit raises it, a
digit after the point that did fit lowers it. -/
def power (l : Literal) : Int :=
  (gather 0 l.whole).2.length
    - (l.fraction.length - (gather (gather 0 l.whole).1 l.fraction).2.length)

/-- **The magnitude of a literal**, if it is finite. An exponent beyond 31 bits makes a zero of what
it lessens, and no finite number of anything else but zero. -/
def magnitude? (l : Literal) : Option Magnitude :=
  match l.exponent with
  | none => assemble l.significand l.power
  | some e =>
    if e.size ≤ maxExponent then
      assemble l.significand (if e.down then l.power - e.size else l.power + e.size)
    else if l.significand ≠ 0 ∧ e.down = false then none
    else some .zero

/-- **The number that a literal stands for**, if there is one. -/
def number? (l : Literal) : Option Number :=
  match l.kept? with
  | some n => some (.whole n)
  | none => l.magnitude?.map fun m => .real { negative := l.negative, magnitude := m }

end Literal

/-! ### Strings -/

/-- The characters that may stand after a backslash, and what they stand for there. -/
def shortEscapes : List (Char × Char) :=
  [('"', '"'), ('\\', '\\'), ('/', '/'), ('b', '\x08'), ('f', '\x0c'), ('n', '\x0a'),
    ('r', '\x0d'), ('t', '\x09')]

/-- A digit of base 16, in either case. -/
def HexDigit (c : Char) (d : Fin 16) : Prop :=
  c = Nat.digitChar d ∨ c = (Nat.digitChar d).toUpper

/-- Some digits of base 16 and the number that they stand for. -/
inductive Hex : List Char → Nat → Prop
  | nil : Hex [] 0
  | snoc {hs : List Char} {n : Nat} {c : Char} {d : Fin 16} :
      Hex hs n → HexDigit c d → Hex (hs ++ [c]) (n * 16 + d)

/-- A unit of 16 bits, as four digits. -/
def CodeUnit (hs : List Char) (n : Nat) : Prop := hs.length = 4 ∧ Hex hs n

/-- **The inside of a string and the characters that it spells.** A character stands for itself, or
for what it means after a backslash, or is spelled by its number in four digits; one above `U+FFFF`
takes a leading and a trailing surrogate, and no surrogate stands otherwise. -/
inductive SpellsChars : List Char → List Char → Prop
  | nil : SpellsChars [] []
  | plain {c : Char} {t s : List Char} :
      0x20 ≤ c.toNat → c ≠ '"' → c ≠ '\\' → SpellsChars t s → SpellsChars (c :: t) (c :: s)
  | short {e c : Char} {t s : List Char} :
      (e, c) ∈ shortEscapes → SpellsChars t s → SpellsChars ('\\' :: e :: t) (c :: s)
  | unit {u t s : List Char} {n : Nat} :
      CodeUnit u n → n < 0xD800 ∨ 0xDFFF < n → SpellsChars t s →
        SpellsChars ('\\' :: 'u' :: (u ++ t)) (Char.ofNat n :: s)
  | pair {u v t s : List Char} {lead trail : Nat} :
      CodeUnit u lead → 0xD800 ≤ lead → lead ≤ 0xDBFF →
        CodeUnit v trail → 0xDC00 ≤ trail → trail ≤ 0xDFFF → SpellsChars t s →
        SpellsChars ('\\' :: 'u' :: (u ++ '\\' :: 'u' :: (v ++ t)))
          (Char.ofNat (0x10000 + (lead - 0xD800) * 0x400 + (trail - 0xDC00)) :: s)

def SpellsString (t : List Char) (s : String) : Prop :=
  ∃ inside, t = '"' :: (inside ++ ['"']) ∧ SpellsChars inside s.toList

/-! ### Values -/

mutual

/-- **A value with nothing around it.** -/
inductive Spells : List Char → Value → Prop
  | null : Spells ['n', 'u', 'l', 'l'] .null
  | true : Spells ['t', 'r', 'u', 'e'] (.bool true)
  | false : Spells ['f', 'a', 'l', 's', 'e'] (.bool false)
  | number {l : Literal} {n : Number} : l.number? = some n → Spells l.text (.number n)
  | string {t : List Char} {s : String} : SpellsString t s → Spells t (.string s)
  | emptyArray {w : List Char} : Blank w → Spells ('[' :: (w ++ [']'])) (.array [])
  | array {t : List Char} {vs : List Value} :
      SpellsItems t vs → Spells ('[' :: (t ++ [']'])) (.array vs)
  | emptyObject {w : List Char} : Blank w → Spells ('\x7b' :: (w ++ ['\x7d'])) (.object [])
  | object {t : List Char} {ms : Members} :
      SpellsMembers t ms → Spells ('\x7b' :: (t ++ ['\x7d'])) (.object ms)

/-- **A value with white space around it.** A whole text is one of these. -/
inductive SpellsPadded : List Char → Value → Prop
  | mk {w t w' : List Char} {v : Value} :
      Blank w → Spells t v → Blank w' → SpellsPadded (w ++ t ++ w') v

/-- The items of an array, with commas between them. -/
inductive SpellsItems : List Char → List Value → Prop
  | last {t : List Char} {v : Value} : SpellsPadded t v → SpellsItems t [v]
  | more {t ts : List Char} {v : Value} {vs : List Value} :
      SpellsPadded t v → SpellsItems ts vs → SpellsItems (t ++ ',' :: ts) (v :: vs)

inductive SpellsMember : List Char → String × Value → Prop
  | mk {w k w' t : List Char} {key : String} {v : Value} :
      Blank w → SpellsString k key → Blank w' → SpellsPadded t v →
        SpellsMember (w ++ k ++ w' ++ ':' :: t) (key, v)

/-- The members of an object, with commas between them. -/
inductive SpellsMembers : List Char → Members → Prop
  | last {t : List Char} {m : String × Value} : SpellsMember t m → SpellsMembers t [m]
  | more {t ts : List Char} {m : String × Value} {ms : Members} :
      SpellsMember t m → SpellsMembers ts ms → SpellsMembers (t ++ ',' :: ts) (m :: ms)

end

/-! ### What is measured of a plain value, and what becomes of it -/

mutual

/-- **How many arrays and objects are nested in a value**, itself among them. -/
def Value.depth : Value → Nat
  | .null | .bool _ | .number _ | .string _ => 0
  | .array vs => itemsDepth vs + 1
  | .object ms => membersDepth ms + 1

def itemsDepth : List Value → Nat
  | [] => 0
  | v :: vs => max v.depth (itemsDepth vs)

def membersDepth : Members → Nat
  | [] => 0
  | (_, v) :: ms => max v.depth (membersDepth ms)

end

/-- Members put into an object one after another. -/
def putAll (acc : Members) (ms : Members) : Members :=
  ms.foldl (fun acc m => put m.1 m.2 acc) acc

mutual

/-- **A plain value with the members of every object put together by their keys.** -/
def Value.merged : Value → Value
  | .null => .null
  | .bool b => .bool b
  | .number n => .number n
  | .string s => .string s
  | .array vs => .array (mergedItems vs)
  | .object ms => .object (putAll [] (mergedMembers ms))

def mergedItems : List Value → List Value
  | [] => []
  | v :: vs => v.merged :: mergedItems vs

def mergedMembers : Members → Members
  | [] => []
  | (k, v) :: ms => (k, v.merged) :: mergedMembers ms

end

mutual

/-- **Whether `p` holds of a value and of every value inside it.** -/
def Value.All (p : Value → Prop) : Value → Prop
  | .null => p .null
  | .bool b => p (.bool b)
  | .number n => p (.number n)
  | .string s => p (.string s)
  | .array vs => p (.array vs) ∧ AllItems p vs
  | .object ms => p (.object ms) ∧ AllMembers p ms

def AllItems (p : Value → Prop) : List Value → Prop
  | [] => True
  | v :: vs => v.All p ∧ AllItems p vs

def AllMembers (p : Value → Prop) : Members → Prop
  | [] => True
  | (_, v) :: ms => v.All p ∧ AllMembers p ms

end

end TokenForge.Json
