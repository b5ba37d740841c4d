import TokenForge.Number.Bytes

/-!
# The two fields of P-256

Coordinates of points are numbers modulo `prime`, and scalars are numbers modulo `order`. Both are
prime, so a power finds the inverse.

* `bitsOf` — the 256 bits of a number;
* `power` — square and multiply, and `inverse` — the power that inverts.
-/

namespace TokenForge.P256

/-- The size of the field of coordinates. -/
def prime : Nat := 0xffffffff00000001000000000000000000000000ffffffffffffffffffffffff

/-- The number of points on the curve. -/
def order : Nat := 0xffffffff00000000ffffffffffffffffbce6faada7179e84f3b9cac2fc632551

instance : @NeZero Nat Zero.ofOfNat0 prime := ⟨by decide⟩

instance : @NeZero Nat Zero.ofOfNat0 order := ⟨by decide⟩

abbrev Coordinate := Fin prime

/-- The bytes of a coordinate or a scalar. -/
def size : Nat := 32

/-- The low 256 bits of a number, the highest first. -/
def bitsOf (n : Nat) : List Bool := (List.range 256).reverse.map n.testBit

/-- The one among the numbers that `x` is of. -/
def one {m : Nat} (x : Fin m) : Fin m := ⟨1 % m, Nat.mod_lt 1 x.pos⟩

/-- **The power `x ^ e`**, for an exponent of at most 256 bits. -/
def power {m : Nat} (x : Fin m) (e : Nat) : Fin m :=
  (bitsOf e).foldl (fun acc bit => if bit then acc * acc * x else acc * acc) (one x)

/-- The inverse modulo a prime; that of zero is zero. -/
def inverse {m : Nat} (x : Fin m) : Fin m := power x (m - 2)

end TokenForge.P256
