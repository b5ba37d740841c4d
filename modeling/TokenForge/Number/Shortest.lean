import TokenForge.Number.Binary64

/-!
# The shortest decimal of a binary64 magnitude

A decimal *reads back* as a magnitude when it lies in the interval of values that round to it: half
way to each neighbour, the ends included when the bits are even. Among the decimals with the fewest
digits that read back, `shortest` picks the one nearest to the value, and of two as near the one
with the even last digit.

* `Decimal` — a natural number times a power of ten;
* `readsBack` — whether a decimal lies in the interval;
* `candidate` — the nearest decimal on one power of ten that reads back;
* `shortest` — the first candidate, from one digit to seventeen.
-/

namespace TokenForge

/-- The number `digits * 10 ^ exponent`. -/
structure Decimal where
  digits : Nat
  /-- The power of ten of the last digit. -/
  exponent : Int
  deriving DecidableEq, Repr

namespace Decimal

/-- `10 ^ e` for a positive `e`, else one. -/
def up (e : Int) : Nat := Nat.pow 10 e.toNat

/-- **The numerator of a decimal in units.** The decimal `d * 10 ^ e` is `d * up e / up (-e)`, so in
units of `2 ^ (-1074)` it is `scaled d e / up (-e)`. -/
def scaled (d : Nat) (e : Int) : Nat := d * up e * Nat.pow 2 1074

end Decimal

namespace Magnitude

/-- **Whether `d * 10 ^ e` rounds to `m`.** Both sides are doubled, so that the half-way points to
the neighbours are whole numbers of units. -/
def readsBack (m : Magnitude) (d : Nat) (e : Int) : Bool :=
  let low := (TokenForge.units (m.bits - 1) + m.units) * Decimal.up (-e)
  let high := (m.units + TokenForge.units (m.bits + 1)) * Decimal.up (-e)
  let x := 2 * Decimal.scaled d e
  if m.bits % 2 = 0 then low ≤ x && x ≤ high else low < x && x < high

/-- **The decimal on the grid of `10 ^ e` that reads back and is nearest to `m`**, if any. Only the
grid's two neighbours of the value need a look. -/
def candidate (m : Magnitude) (e : Int) : Option Decimal :=
  let num := m.units * Decimal.up (-e)
  let step := Decimal.scaled 1 e
  let d := num / step
  let below := num - d * step
  let above := (d + 1) * step - num
  let first := if below < above || below = above && d % 2 = 0 then d else d + 1
  let second := if first = d then d + 1 else d
  if m.readsBack first e then some ⟨first, e⟩
  else if m.readsBack second e then some ⟨second, e⟩
  else none

/-- The power of ten of the leading digit of a value that is not zero. -/
def leadingExponent (m : Magnitude) : Int :=
  let n := m.units * Nat.pow 10 330 / Nat.pow 2 1074
  ((Nat.toDigits 10 n).length : Int) - 331

/-- The candidates with `n`, `n + 1`, … digits, `fuel` grids in all. -/
def searchFrom (m : Magnitude) (lead : Int) : Nat → Nat → Option Decimal
  | 0, _ => none
  | fuel + 1, n =>
    match m.candidate (lead - n) with
    | some d => some d
    | none => searchFrom m lead fuel (n + 1)

end Magnitude

/-- The same number with no zero at the end of its digits. -/
def Decimal.trim (d : Decimal) : Decimal :=
  go (Nat.log2 d.digits) d
where
  /-- At most `fuel` zeros are dropped. -/
  go : Nat → Decimal → Decimal
    | 0, d => d
    | fuel + 1, d =>
      if d.digits ≠ 0 ∧ d.digits % 10 = 0 then go fuel ⟨d.digits / 10, d.exponent + 1⟩ else d

/-- **The shortest decimal that reads back as `m`.** Seventeen digits always do. -/
def Magnitude.shortest (m : Magnitude) : Decimal :=
  ((m.searchFrom m.leadingExponent 17 0).getD ⟨0, 0⟩).trim

end TokenForge
