import TokenForge.Number.Shortest

/-!
# Numbers as text

The digits of a binary64 number are those of its shortest decimal. A *format* says where the point
goes: between two powers of ten the number is written positionally, with at least one digit after
the point; outside them with an exponent that always carries its sign.

* `natDigits` — a natural number in base ten;
* `RealFormat` — the bounds of positional writing;
* `RealFormat.write` — a binary64 number as text.
-/

namespace TokenForge

/-- A natural number in base ten. -/
def natDigits (n : Nat) : List Char := Nat.toDigits 10 n

/-- An integer in base ten. -/
def intDigits : Int → List Char
  | .ofNat n => natDigits n
  | .negSucc n => '-' :: natDigits (n + 1)

/-- Where positional writing of binary64 numbers begins and ends. -/
structure RealFormat where
  /-- The least power of ten of a leading digit that is written positionally. -/
  least : Int
  /-- The greatest such power. -/
  greatest : Int
  deriving Repr

namespace RealFormat

/-- The digits `ds` with a point after the first `n`, and a digit on both sides of it. -/
def positional (ds : List Char) (n : Int) : List Char :=
  if n ≤ 0 then ['0', '.'] ++ List.replicate (-n).toNat '0' ++ ds
  else if n.toNat < ds.length then ds.take n.toNat ++ '.' :: ds.drop n.toNat
  else ds ++ List.replicate (n.toNat - ds.length) '0' ++ ['.', '0']

/-- The digits `ds` with a point after the first, and the exponent `e`. -/
def scientific (ds : List Char) (e : Int) : List Char :=
  let fraction := if ds.length ≤ 1 then [] else '.' :: ds.drop 1
  ds.take 1 ++ fraction ++ 'e' :: (if e < 0 then '-' else '+') :: natDigits e.natAbs

/-- **A binary64 number as text.** -/
def write (f : RealFormat) (x : Binary64) : List Char :=
  let sign := if x.negative then ['-'] else []
  if x.magnitude.bits = 0 then sign ++ ['0', '.', '0']
  else
    let d := x.magnitude.shortest
    let ds := natDigits d.digits
    let lead := d.exponent + ds.length - 1
    sign ++ if f.least ≤ lead ∧ lead ≤ f.greatest then positional ds (lead + 1)
      else scientific ds lead

end RealFormat

end TokenForge
