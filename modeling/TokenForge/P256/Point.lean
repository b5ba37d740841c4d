import TokenForge.P256.Field

/-!
# Points of P-256

The points of `y ^ 2 = x ^ 3 - 3 x + b` and the point at infinity, added by chord and tangent.

* `Point.add`, `Point.times` — the sum of two points, the multiple of one;
* `generator` — the point of which all others are multiples;
* `Point.compressed`, `Point.uncompressed` — a point as bytes;
* `Point.ofUncompressed?` — the point that some bytes are.
-/

namespace TokenForge.P256

/-- The constant term of the curve. -/
def constantTerm : Coordinate :=
  Fin.ofNat prime 0x5ac635d8aa3a93e7b3ebbd55769886bc651d06b0cc53b0f63bce3c3e27d2604b

/-- A pair of coordinates, or the point at infinity. -/
inductive Point where
  | infinity
  | affine (x y : Coordinate)
  deriving DecidableEq, Repr

namespace Point

/-- Whether the coordinates satisfy the equation of the curve. -/
def onCurve (x y : Coordinate) : Bool := y * y == x * x * x - 3 * x + constantTerm

/-- **The slope of the line through two points** that are not opposite: of the chord, or of the
tangent if they are the same. -/
def slope (x₁ y₁ x₂ y₂ : Coordinate) : Coordinate :=
  if x₁ = x₂ then (3 * x₁ * x₁ - 3) * inverse (2 * y₁)
  else (y₂ - y₁) * inverse (x₂ - x₁)

def add : Point → Point → Point
  | infinity, q => q
  | p, infinity => p
  | affine x₁ y₁, affine x₂ y₂ =>
    if x₁ = x₂ ∧ y₁ + y₂ = 0 then infinity
    else
      let s := slope x₁ y₁ x₂ y₂
      let x := s * s - x₁ - x₂
      affine x (s * (x₁ - x) - y₁)

/-- **The multiple of a point**, for a factor of at most 256 bits: double, and add for each bit that
is set. -/
def times (n : Nat) (p : Point) : Point :=
  (bitsOf n).foldl (fun acc bit => if bit then (acc.add acc).add p else acc.add acc) infinity

/-- The first coordinate as a number; that of infinity is zero. -/
def xNat : Point → Nat
  | infinity => 0
  | affine x _ => x.val

/-- The bytes of a point in compressed form. -/
def compressed : Point → Bytes
  | infinity => [0]
  | affine x y => (if y.val % 2 = 0 then 2 else 3) :: toBytes size x.val

/-- The bytes of a point in full. -/
def uncompressed : Point → Bytes
  | infinity => [0]
  | affine x y => 4 :: (toBytes size x.val ++ toBytes size y.val)

/-- **The point whose uncompressed form some bytes are**, if it is on the curve. -/
def ofUncompressed? : Bytes → Option Point
  | [] => none
  | tag :: rest =>
    let x := ofBytes (rest.take size)
    let y := ofBytes (rest.drop size)
    if tag = 4 ∧ rest.length = 2 * size ∧ x < prime ∧ y < prime
        ∧ onCurve (Fin.ofNat prime x) (Fin.ofNat prime y) then
      some (affine (Fin.ofNat prime x) (Fin.ofNat prime y))
    else none

end Point

def generator : Point :=
  .affine
    (Fin.ofNat prime 0x6b17d1f2e12c4247f8bce6e563a440f277037d812deb33a0f4a13945d898c296)
    (Fin.ofNat prime 0x4fe342e2fe1a7f9b8ee7eb4a7c0f9e162bce33576b315ececbb6406837bf51f5)

end TokenForge.P256
