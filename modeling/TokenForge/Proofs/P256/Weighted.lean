import TokenForge.Proofs.P256.Group

/-!
# Points in weighted coordinates

Three coordinates `x`, `y` and `z` stand for the point `(x / z ^ 2, y / z ^ 3)`, and for infinity if
`z` is zero. Such points are doubled and added without inverses, so that a multiple by a factor of 256
bits is soon computed (`Weighted.represents_times`).

* `Weighted.double`, `Weighted.add` — twice a point, and a point and one in plain coordinates;
* `Weighted.Represents` — which element of the group a weighted point stands for.
-/

namespace TokenForge.P256

/-- A point in weighted coordinates. -/
structure Weighted where
  x : Coordinate
  y : Coordinate
  z : Coordinate
  deriving DecidableEq, Repr

namespace Weighted

/-- Twice a point. -/
def double (w : Weighted) : Weighted :=
  let slope := 3 * (w.x - w.z * w.z) * (w.x + w.z * w.z)
  let square := w.y * w.y
  let x := slope * slope - 8 * w.x * square
  { x := x, y := slope * (4 * w.x * square - x) - 8 * square * square, z := 2 * w.y * w.z }

/-- The sum of two points that are neither the same nor at infinity. -/
def chord (w : Weighted) (x₂ y₂ : Coordinate) : Weighted :=
  let run := x₂ * (w.z * w.z) - w.x
  let rise := y₂ * (w.z * w.z * w.z) - w.y
  let square := run * run
  let x := rise * rise - square * run - 2 * w.x * square
  { x := x, y := rise * (w.x * square - x) - w.y * (square * run), z := w.z * run }

/-- The sum of two points, of which the second has plain coordinates. -/
def add (w : Weighted) (x₂ y₂ : Coordinate) : Weighted :=
  if w.z = 0 then { x := x₂, y := y₂, z := 1 }
  else if w.x = x₂ * (w.z * w.z) ∧ w.y = y₂ * (w.z * w.z * w.z) then w.double
  else w.chord x₂ y₂

/-- The multiple of a point in plain coordinates, by the low 256 bits of a factor. -/
def times (n : Nat) (x y : Coordinate) : Weighted :=
  (bitsOf n).foldl (fun acc bit => if bit then acc.double.add x y else acc.double)
    { x := 0, y := 0, z := 0 }

/-- **Which element of the group a weighted point stands for.** -/
inductive Represents (w : Weighted) : curve.Point → Prop where
  | infinity (hz : toZMod w.z = 0) : Represents w 0
  | affine {x y : ZMod prime} (h : curve.Nonsingular x y) (hz : toZMod w.z ≠ 0)
    (hx : toZMod w.x = x * toZMod w.z ^ 2) (hy : toZMod w.y = y * toZMod w.z ^ 3) :
    Represents w (.some x y h)

variable {w : Weighted} {P : curve.Point} {x₁ y₁ x₂ y₂ : ZMod prime}

/-- What has no weight stands for infinity. -/
theorem Represents.eq_zero (hw : w.Represents P) (hz : w.z = 0) : P = 0 := by
  cases hw with
  | infinity _ => rfl
  | affine _ hne => exact absurd (hz ▸ toZMod_zero) hne

/-! ### The line through two points -/

/-- The slope of the tangent, without a quotient. -/
theorem slope_tangent (hy : y₁ ≠ curve.negY x₁ y₁) :
    2 * y₁ * curve.slope x₁ x₁ y₁ y₁ = 3 * x₁ ^ 2 - 3 := by
  have hne : 2 * y₁ ≠ 0 := sub_negY_curve x₁ y₁ ▸ sub_ne_zero.mpr hy
  rw [WeierstrassCurve.Affine.slope_of_Y_ne rfl hy, sub_negY_curve, mul_div_cancel₀ _ hne]
  simp only [curve]
  ring

/-- The slope of the chord, without a quotient. -/
theorem slope_chord (hx : x₁ ≠ x₂) :
    (x₂ - x₁) * curve.slope x₁ x₂ y₁ y₂ = y₂ - y₁ := by
  have hne : x₁ - x₂ ≠ 0 := sub_ne_zero.mpr hx
  rw [WeierstrassCurve.Affine.slope_of_X_ne hx, ← neg_sub x₁ x₂, neg_mul, mul_div_cancel₀ _ hne,
    neg_sub]

/-! ### Doubling -/

/-- The new weight, and the slope of the tangent times that weight. -/
theorem toZMod_double_z (hy : toZMod w.y = y₁ * toZMod w.z ^ 3) :
    toZMod w.double.z = 2 * y₁ * toZMod w.z ^ 4 := by
  simp only [double, toZMod_mul, toZMod_numeral, hy]
  ring

/-- The first coordinate of twice the point, with its weight. -/
theorem toZMod_double_x {l : ZMod prime} (hx : toZMod w.x = x₁ * toZMod w.z ^ 2)
    (hy : toZMod w.y = y₁ * toZMod w.z ^ 3) (hslope : 2 * y₁ * l = 3 * x₁ ^ 2 - 3) :
    toZMod w.double.x = curve.addX x₁ x₁ l * toZMod w.double.z ^ 2 := by
  rw [toZMod_double_z hy, addX_curve]
  simp only [double, toZMod_mul, toZMod_sub, toZMod_add, toZMod_numeral, hx, hy]
  linear_combination (-toZMod w.z ^ 8 * (3 * x₁ ^ 2 - 3 + 2 * y₁ * l)) * hslope

/-- The second coordinate of twice the point, with its weight. -/
theorem toZMod_double_y {l : ZMod prime} (hx : toZMod w.x = x₁ * toZMod w.z ^ 2)
    (hy : toZMod w.y = y₁ * toZMod w.z ^ 3) (hslope : 2 * y₁ * l = 3 * x₁ ^ 2 - 3) :
    toZMod w.double.y = curve.addY x₁ x₁ y₁ l * toZMod w.double.z ^ 3 := by
  have hdouble : w.double.y = 3 * (w.x - w.z * w.z) * (w.x + w.z * w.z) *
      (4 * w.x * (w.y * w.y) - w.double.x) - 8 * (w.y * w.y) * (w.y * w.y) := rfl
  rw [hdouble]
  simp only [toZMod_mul, toZMod_sub, toZMod_add, toZMod_numeral]
  rw [toZMod_double_x hx hy hslope, toZMod_double_z hy, addY_curve, hx, hy]
  -- both sides differ by a multiple of the equation for the slope
  linear_combination
    (-4 * y₁ ^ 2 * toZMod w.z ^ 12 * (x₁ - curve.addX x₁ x₁ l)) * hslope

/-- **Twice a weighted point stands for twice the point.** -/
theorem Represents.double (hw : w.Represents P) : w.double.Represents (P + P) := by
  cases hw with
  | infinity hz =>
    rw [add_zero]
    refine .infinity ?_
    change toZMod (2 * w.y * w.z) = 0
    rw [toZMod_mul, hz, mul_zero]
  | @affine x₁ y₁ hP hz hx hy =>
    have hz' := toZMod_double_z hy
    have hopposite : y₁ = curve.negY x₁ y₁ ↔ 2 * y₁ = 0 := by
      rw [← sub_negY_curve x₁ y₁, sub_eq_zero]
    by_cases hupright : y₁ = curve.negY x₁ y₁
    -- the tangent is upright, so twice the point is at infinity
    · rw [WeierstrassCurve.Affine.Point.add_self_of_Y_eq hupright]
      refine .infinity ?_
      rw [hz', hopposite.mp hupright, zero_mul]
    · rw [WeierstrassCurve.Affine.Point.add_self_of_Y_ne hupright]
      have hslope := slope_tangent hupright
      refine .affine _ ?_ (toZMod_double_x hx hy hslope) (toZMod_double_y hx hy hslope)
      rw [hz']
      exact mul_ne_zero (mt hopposite.mpr hupright) (pow_ne_zero 4 hz)

/-! ### Adding -/

variable {a b : Coordinate}

/-- The new weight is the run of the chord times the weight. -/
theorem toZMod_chord_z (hx : toZMod w.x = x₁ * toZMod w.z ^ 2) :
    toZMod (w.chord a b).z = (toZMod a - x₁) * toZMod w.z ^ 3 := by
  simp only [chord, toZMod_mul, toZMod_sub, hx]
  ring

/-- The first coordinate of the sum, with its weight. -/
theorem toZMod_chord_x {l : ZMod prime} (hx : toZMod w.x = x₁ * toZMod w.z ^ 2)
    (hy : toZMod w.y = y₁ * toZMod w.z ^ 3) (hslope : (toZMod a - x₁) * l = toZMod b - y₁) :
    toZMod (w.chord a b).x =
      curve.addX x₁ (toZMod a) l * toZMod (w.chord a b).z ^ 2 := by
  rw [toZMod_chord_z hx, addX_curve]
  simp only [chord, toZMod_mul, toZMod_sub, toZMod_numeral, hx, hy]
  linear_combination
    (-toZMod w.z ^ 6 * (toZMod b - y₁ + (toZMod a - x₁) * l)) * hslope

/-- The second coordinate of the sum, with its weight. -/
theorem toZMod_chord_y {l : ZMod prime} (hx : toZMod w.x = x₁ * toZMod w.z ^ 2)
    (hy : toZMod w.y = y₁ * toZMod w.z ^ 3) (hslope : (toZMod a - x₁) * l = toZMod b - y₁) :
    toZMod (w.chord a b).y =
      curve.addY x₁ (toZMod a) y₁ l * toZMod (w.chord a b).z ^ 3 := by
  have hchord : (w.chord a b).y = (b * (w.z * w.z * w.z) - w.y) *
      (w.x * ((a * (w.z * w.z) - w.x) * (a * (w.z * w.z) - w.x)) - (w.chord a b).x) -
      w.y * ((a * (w.z * w.z) - w.x) * (a * (w.z * w.z) - w.x) * (a * (w.z * w.z) - w.x)) := rfl
  rw [hchord]
  simp only [toZMod_mul, toZMod_sub]
  rw [toZMod_chord_x hx hy hslope, toZMod_chord_z hx, addY_curve, hx, hy]
  -- here too the equation for the slope makes up the difference
  linear_combination (-(toZMod a - x₁) ^ 2 * toZMod w.z ^ 9 *
    (x₁ - curve.addX x₁ (toZMod a) l)) * hslope

/-- Whether the points are the same is decided by the weighted coordinates. -/
theorem same_iff (hz : toZMod w.z ≠ 0) (hx : toZMod w.x = x₁ * toZMod w.z ^ 2)
    (hy : toZMod w.y = y₁ * toZMod w.z ^ 3) :
    (w.x = a * (w.z * w.z) ∧ w.y = b * (w.z * w.z * w.z)) ↔ x₁ = toZMod a ∧ y₁ = toZMod b := by
  have hsquare : toZMod (a * (w.z * w.z)) = toZMod a * toZMod w.z ^ 2 := by
    rw [toZMod_mul, toZMod_mul, pow_two]
  have hcube : toZMod (b * (w.z * w.z * w.z)) = toZMod b * toZMod w.z ^ 3 := by
    rw [toZMod_mul, toZMod_mul, toZMod_mul, pow_succ, pow_two]
  rw [← toZMod_inj, ← toZMod_inj, hx, hy, hsquare, hcube, mul_left_inj' (pow_ne_zero 2 hz),
    mul_left_inj' (pow_ne_zero 3 hz)]

/-- **The sum stands for the sum.** -/
theorem Represents.add (hw : w.Represents P) (hab : curve.Nonsingular (toZMod a) (toZMod b)) :
    (w.add a b).Represents (P + .some (toZMod a) (toZMod b) hab) := by
  cases hw with
  | infinity hz =>
    have hz0 : w.z = 0 := toZMod_inj.mp (hz.trans toZMod_zero.symm)
    rw [zero_add, Weighted.add, if_pos hz0]
    refine .affine hab ?_ ?_ ?_ <;> dsimp only <;> rw [toZMod_one]
    · exact one_ne_zero
    · rw [one_pow, mul_one]
    · rw [one_pow, mul_one]
  | @affine x₁ y₁ hP hz hx hy =>
    have hz0 : w.z ≠ 0 := fun h => hz (h ▸ toZMod_zero)
    have hsame := @same_iff w _ _ a b hz hx hy
    rw [Weighted.add, if_neg hz0]
    by_cases heq : x₁ = toZMod a ∧ y₁ = toZMod b
    -- a point and itself
    · rw [if_pos (hsame.mpr heq)]
      obtain ⟨rfl, rfl⟩ := heq
      exact (Represents.affine hP hz hx hy).double
    · rw [if_neg (mt hsame.mp heq)]
      by_cases hxa : x₁ = toZMod a
      -- on one upright line and not the same, so opposite
      · have hopposite : y₁ = curve.negY (toZMod a) (toZMod b) :=
          (WeierstrassCurve.Affine.Y_eq_of_X_eq hP.1 hab.1 hxa).resolve_left
            fun hyb => heq ⟨hxa, hyb⟩
        rw [WeierstrassCurve.Affine.Point.add_of_Y_eq hxa hopposite]
        refine .infinity ?_
        rw [toZMod_chord_z hx, hxa, sub_self, zero_mul]
      · rw [WeierstrassCurve.Affine.Point.add_of_X_ne hxa]
        have hslope := @slope_chord x₁ y₁ (toZMod a) (toZMod b) hxa
        refine .affine _ ?_ (toZMod_chord_x hx hy hslope) (toZMod_chord_y hx hy hslope)
        rw [toZMod_chord_z hx]
        exact mul_ne_zero (sub_ne_zero.mpr (Ne.symm hxa)) (pow_ne_zero 3 hz)

/-! ### Multiples -/

/-- **Multiples stand for multiples**, for a factor of at most 256 bits. -/
theorem represents_times {n : Nat} (hn : n < 2 ^ 256)
    (hab : curve.Nonsingular (toZMod a) (toZMod b)) :
    (times n a b).Represents (n • .some (toZMod a) (toZMod b) hab) := by
  have hstart : ({ x := 0, y := 0, z := 0 } : Weighted).Represents
      (0 • .some (toZMod a) (toZMod b) hab) := by
    rw [zero_nsmul]
    exact .infinity toZMod_zero
  have hstep : ∀ (m : Nat) (acc : Weighted) (bit : Bool),
      acc.Represents (m • .some (toZMod a) (toZMod b) hab) →
        (if bit then acc.double.add a b else acc.double).Represents
          ((2 * m + bit.toNat) • .some (toZMod a) (toZMod b) hab) := by
    intro m acc bit hacc
    rw [add_nsmul, Nat.two_mul, add_nsmul]
    cases bit with
    | false =>
      rw [Bool.toNat_false, zero_nsmul, add_zero]
      exact hacc.double
    | true =>
      rw [Bool.toNat_true, one_nsmul]
      exact hacc.double.add hab
  have hall := @Bits.foldl_ofNat _ _ (fun m (acc : Weighted) =>
    acc.Represents (m • .some (toZMod a) (toZMod b) hab)) _ hstart hstep 256 n
  rwa [Nat.mod_eq_of_lt hn] at hall

end Weighted

end TokenForge.P256
