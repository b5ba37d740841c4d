/-!
# Finite binary64 numbers

A finite double-precision number is a sign and a *magnitude*; a magnitude is the 63 bits below the
sign, read as a natural number. Bits order magnitudes by value, and every magnitude is a whole
number of *units* of `2 ^ (-1074)`, so all arithmetic here is exact and on natural numbers.

* `units` — the value of some bits, in units;
* `nearestBits` — the bits whose value is nearest to a ratio, a tie going to even bits;
* `Magnitude.ofRatio?`, `Magnitude.add?`, `Magnitude.mul?`, `Magnitude.div?` — results rounded
  once, `none` where the nearest value is not finite.
-/

namespace TokenForge

/-- The least bits that stand for no finite magnitude. -/
def infiniteBits : Nat := 0x7FF * Nat.pow 2 52

/-- **The value of `bits` in units of `2 ^ (-1074)`.** Below `2 ^ 52` the bits are the value; from
there each block of `2 ^ 52` bits doubles the distance between neighbours. -/
def units (bits : Nat) : Nat :=
  if bits < Nat.pow 2 52 then bits
  else (Nat.pow 2 52 + bits % Nat.pow 2 52) * Nat.pow 2 (bits / Nat.pow 2 52 - 1)

/-- The natural number nearest to `num / den`; a half goes to the even neighbour. -/
def roundHalfEven (num den : Nat) : Nat :=
  let q := num / den
  let twice := 2 * (num % den)
  if twice < den then q
  else if den < twice then q + 1
  else q + q % 2

/-- How many halvings bring `n` below `2 ^ 53`. -/
def excessBits (n : Nat) : Nat := if n < Nat.pow 2 53 then 0 else Nat.log2 n - 52

/-- **The bits whose value is nearest to `num / den`.** The ratio is counted in units, halved until
it fits in 53 bits, and rounded once. A carry out of the rounded part lands on the next block of
bits, which is the right one. -/
def nearestBits (num den : Nat) : Nat :=
  let s := excessBits (num * Nat.pow 2 1074 / den)
  roundHalfEven (num * Nat.pow 2 1074) (den * Nat.pow 2 s) + s * Nat.pow 2 52

/-- A finite non-negative binary64 value. -/
structure Magnitude where
  /-- The bits below the sign. -/
  bits : Nat
  finite : bits < infiniteBits := by decide
  deriving DecidableEq, Repr

namespace Magnitude

def zero : Magnitude := { bits := 0 }

instance : Inhabited Magnitude := ⟨zero⟩

/-- The value in units of `2 ^ (-1074)`. -/
def units (m : Magnitude) : Nat := TokenForge.units m.bits

/-- The magnitude nearest to `num / den`, if that is finite. -/
def ofRatio? (num den : Nat) : Option Magnitude :=
  let b := nearestBits num den
  if h : b < infiniteBits then some { bits := b, finite := h } else none

def add? (x y : Magnitude) : Option Magnitude := ofRatio? (x.units + y.units) (Nat.pow 2 1074)

def mul? (x y : Magnitude) : Option Magnitude := ofRatio? (x.units * y.units) (Nat.pow 2 (2 * 1074))

def div? (x y : Magnitude) : Option Magnitude := ofRatio? x.units y.units

/-- The magnitude nearest to `10 ^ k`. -/
def powTen? (k : Nat) : Option Magnitude := ofRatio? (Nat.pow 10 k) 1

end Magnitude

/-- A finite binary64 number. Both zeros are numbers. -/
structure Binary64 where
  negative : Bool
  magnitude : Magnitude
  deriving DecidableEq, Repr, Inhabited

end TokenForge
