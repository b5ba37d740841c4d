import Mathlib.Algebra.Order.Field.Power
import TokenForge.Number.Shortest
import TokenForge.Proofs.Number.Rounding

/-!
# The shortest decimal reads back

The decimal that is written for a magnitude rounds to it (`Magnitude.rounds_shortest`). On a grid
that is finer than the distance to both neighbours the nearest point always does, and among
seventeen digits, or down to `10 ^ (-324)`, there is such a grid.

* `Decimal.value` — a decimal as a rational number;
* `Magnitude.readsBack_iff` — what reads back is what rounds to the magnitude;
* `Magnitude.exists_candidate` — a fine grid has a candidate;
* `Magnitude.leadingExponent_spec` — the power of ten of the leading digit.
-/

namespace TokenForge

/-- The number that a decimal stands for. -/
def Decimal.value (d : Decimal) : ℚ := d.digits * 10 ^ d.exponent

/-- A decimal in units, with the negative powers of ten left out. -/
theorem Decimal.scaled_eq (n : Nat) (e : Int) : scaled n e = n * up e * unitsPerOne := by
  unfold scaled unitsPerOne
  rfl

theorem Decimal.up_pos (e : Int) : 0 < up e := Nat.pow_pos (by decide)

/-- The powers of ten on both sides of the line make the power of ten. -/
theorem Decimal.up_eq (e : Int) : (up e : ℚ) = 10 ^ e * up (-e) := by
  have hpow : ∀ k : Nat, ((Nat.pow 10 k : Nat) : ℚ) = 10 ^ k := fun k => by
    rw [Nat.pow_eq]
    push_cast
    rfl
  rw [up, up, hpow, hpow]
  rcases le_total 0 e with he | he
  · obtain ⟨k, rfl⟩ := Int.eq_ofNat_of_zero_le he
    simp
  · obtain ⟨k, hk⟩ := Int.eq_ofNat_of_zero_le (neg_nonneg.mpr he)
    obtain rfl : e = -(k : Int) := by omega
    simp

/-! ### The grid of a power of ten -/

/-- How many units a power of ten is. -/
def grid (e : Int) : ℚ := 10 ^ e * unitsPerOne

/-- A power of ten that is no fraction is a whole number of units. -/
theorem grid_natCast (k : Nat) : grid k = ((10 ^ k * unitsPerOne : Nat) : ℚ) := by
  rw [grid, zpow_natCast]
  push_cast
  rfl

theorem grid_pos (e : Int) : 0 < grid e := by
  have hone : (0 : ℚ) < unitsPerOne := by exact_mod_cast unitsPerOne_pos
  exact mul_pos (zpow_pos (by norm_num) e) hone

/-- More digits make a finer grid. -/
theorem grid_add (e : Int) (k : Nat) : grid (e + k) = 10 ^ k * grid e := by
  rw [grid, grid, zpow_add₀ (by norm_num), zpow_natCast]
  ring

/-- Some powers of ten are less than a unit. -/
theorem unitsPerOne_lt_pow {k : Nat} (hk : 324 ≤ k) : unitsPerOne < Nat.pow 10 k := by
  obtain ⟨e, he, hlt⟩ : ∃ e, e ≤ 324 ∧ unitsPerOne < Nat.pow 10 e :=
    ⟨324, le_rfl, by decide +kernel⟩
  exact hlt.trans_le (Nat.pow_le_pow_right (by decide) (he.trans hk))

/-- The least magnitude is above `10 ^ (-324)`. -/
theorem grid_neg_lt_one {k : Nat} (hk : 324 ≤ k) : grid (-k) < 1 := by
  have h := unitsPerOne_lt_pow hk
  have hscale : (0 : ℚ) < 10 ^ k := by positivity
  have hcast : (unitsPerOne : ℚ) < 10 ^ k := by
    rw [Nat.pow_eq] at h
    exact_mod_cast h
  have hone : 10 ^ k * grid (-k) = unitsPerOne := by
    rw [← grid_add, neg_add_cancel, grid, zpow_zero, one_mul]
  refine lt_of_mul_lt_mul_left ?_ hscale.le
  rw [hone, mul_one]
  exact hcast

/-- A higher power of ten makes a coarser grid. -/
theorem grid_mono {e f : Int} (h : e ≤ f) : grid e ≤ grid f := by
  obtain ⟨k, rfl⟩ := Int.le.dest h
  rw [grid_add]
  have hone : (1 : ℚ) ≤ 10 ^ k := one_le_pow₀ (by norm_num)
  exact le_mul_of_one_le_left (grid_pos e).le hone

namespace Magnitude

variable {m : Magnitude} {e : Int} {d : Decimal}

/-- **What reads back is what rounds to the magnitude.** -/
theorem readsBack_iff (m : Magnitude) (n : Nat) (e : Int) :
    m.readsBack n e = true ↔ Rounds m.bits ((n * 10 ^ e : ℚ) * unitsPerOne) := by
  have hden := Decimal.up_pos (-e)
  -- both sides of the comparison are multiplied, so that it is one of whole numbers
  have hvalue : ((n * 10 ^ e : ℚ) * unitsPerOne) =
      ((n * Decimal.up e * unitsPerOne : Nat) : ℚ) / (Decimal.up (-e) : Nat) := by
    have hne : ((Decimal.up (-e) : Nat) : ℚ) ≠ 0 := by exact_mod_cast hden.ne'
    push_cast
    rw [Decimal.up_eq e]
    field_simp
  rw [hvalue, rounds_div_iff hden]
  simp only [readsBack, Decimal.scaled_eq, Magnitude.units, halfway]
  split
  · -- between two magnitudes the one that is even wins, so only for it the bounds are included
    next heven =>
    have hodd : m.bits % 2 ≠ 1 := by omega
    simp only [Bool.and_eq_true, decide_eq_true_eq]
    exact ⟨fun h => ⟨h.1, h.2, fun h1 => absurd h1 hodd⟩, fun h => ⟨h.1, h.2.1⟩⟩
  · next hodd =>
    have hodd : m.bits % 2 = 1 := by omega
    simp only [Bool.and_eq_true, decide_eq_true_eq]
    exact ⟨fun h => ⟨h.1.le, h.2.le, fun _ => h⟩, fun h => h.2.2 hodd⟩

/-- What reads back, in steps of the grid. -/
theorem readsBack_iff_grid (m : Magnitude) (n : Nat) (e : Int) :
    m.readsBack n e = true ↔ Rounds m.bits (n * grid e) := by
  rw [readsBack_iff, grid, mul_assoc]

/-- The multiple of `step` that is nearer to `num`, of the two around it. -/
def nearerPoint (num step : Nat) : Nat :=
  let d := num / step
  let below := num - d * step
  let above := (d + 1) * step - num
  if below < above || below = above && d % 2 = 0 then d else d + 1

/-- The other one of the two. -/
def otherPoint (num step : Nat) : Nat :=
  if nearerPoint num step = num / step then num / step + 1 else num / step

/-- A candidate is the nearer point if that reads back, or else the other one if that does. -/
theorem candidate_eq (m : Magnitude) (e : Int) :
    m.candidate e =
      if m.readsBack (nearerPoint (m.units * Decimal.up (-e)) (Decimal.scaled 1 e)) e then
        some ⟨nearerPoint (m.units * Decimal.up (-e)) (Decimal.scaled 1 e), e⟩
      else if m.readsBack (otherPoint (m.units * Decimal.up (-e)) (Decimal.scaled 1 e)) e then
        some ⟨otherPoint (m.units * Decimal.up (-e)) (Decimal.scaled 1 e), e⟩
      else none := rfl

/-- **The nearer point is half a step away at most.** -/
theorem nearerPoint_spec (num : Nat) {step : Nat} (hstep : 0 < step) :
    2 * (nearerPoint num step * step) ≤ 2 * num + step ∧
      2 * num ≤ 2 * (nearerPoint num step * step) + step := by
  have hnum : num / step * step + num % step = num := Nat.div_add_mod' num step
  have hmod : num % step < step := Nat.mod_lt num hstep
  have hnext : (num / step + 1) * step = num / step * step + step := Nat.succ_mul _ _
  unfold nearerPoint
  dsimp only
  split
  · next hbelow =>
    simp only [Bool.or_eq_true, Bool.and_eq_true, decide_eq_true_eq, hnext] at hbelow
    omega
  · next habove =>
    simp only [Bool.or_eq_true, Bool.and_eq_true, decide_eq_true_eq, hnext] at habove
    rw [hnext]
    omega

/-- The nearer point is one of the two around the number. -/
theorem nearerPoint_bounds (num step : Nat) :
    num / step ≤ nearerPoint num step ∧ nearerPoint num step ≤ num / step + 1 := by
  unfold nearerPoint
  dsimp only
  split <;> omega

theorem otherPoint_bounds (num step : Nat) :
    num / step ≤ otherPoint num step ∧ otherPoint num step ≤ num / step + 1 := by
  unfold otherPoint
  split <;> omega

theorem scaled_pos (e : Int) : 0 < Decimal.scaled 1 e := by
  rw [Decimal.scaled_eq]
  exact Nat.mul_pos (Nat.mul_pos Nat.one_pos (Decimal.up_pos e)) unitsPerOne_pos

/-- A step of the grid, with both sides multiplied. -/
theorem cast_scaled (e : Int) :
    ((Decimal.scaled 1 e : Nat) : ℚ) = grid e * (Decimal.up (-e) : Nat) := by
  rw [Decimal.scaled_eq, grid]
  push_cast
  rw [Decimal.up_eq e]
  ring

theorem cast_up_pos (e : Int) : (0 : ℚ) < (Decimal.up e : Nat) := by
  exact_mod_cast Decimal.up_pos e

/-- The nearer point of the grid is half a step away at most. -/
theorem nearerPoint_grid (m : Magnitude) (e : Int) :
    2 * (nearerPoint (m.units * Decimal.up (-e)) (Decimal.scaled 1 e) * grid e) ≤
        2 * m.units + grid e ∧
      2 * (m.units : ℚ) ≤
        2 * (nearerPoint (m.units * Decimal.up (-e)) (Decimal.scaled 1 e) * grid e) + grid e := by
  obtain ⟨hlow, hhigh⟩ := nearerPoint_spec (m.units * Decimal.up (-e)) (scaled_pos e)
  generalize nearerPoint (m.units * Decimal.up (-e)) (Decimal.scaled 1 e) = n at hlow hhigh ⊢
  have hlow : (2 * (n * (Decimal.scaled 1 e : Nat)) : ℚ) ≤
      2 * (m.units * (Decimal.up (-e) : Nat)) + (Decimal.scaled 1 e : Nat) := by
    exact_mod_cast hlow
  have hhigh : (2 * (m.units * (Decimal.up (-e) : Nat)) : ℚ) ≤
      2 * (n * (Decimal.scaled 1 e : Nat)) + (Decimal.scaled 1 e : Nat) := by
    exact_mod_cast hhigh
  rw [cast_scaled] at hlow hhigh
  constructor
  · refine le_of_mul_le_mul_right ?_ (cast_up_pos (-e))
    linarith
  · refine le_of_mul_le_mul_right ?_ (cast_up_pos (-e))
    linarith

/-- **On a grid finer than the distance to both neighbours the nearer point reads back.** -/
theorem exists_candidate (hlow : grid e < m.units - TokenForge.units (m.bits - 1))
    (hhigh : grid e < TokenForge.units (m.bits + 1) - m.units) : ∃ d, m.candidate e = some d := by
  obtain ⟨hbelow, habove⟩ := nearerPoint_grid m e
  -- half a step is less than half the distance to either neighbour
  have hreads : m.readsBack (nearerPoint (m.units * Decimal.up (-e)) (Decimal.scaled 1 e)) e =
      true := by
    refine (readsBack_iff_grid m _ e).mpr (Rounds.of_lt ?_ ?_)
    · rw [show TokenForge.units m.bits = m.units from rfl]
      push_cast
      linarith
    · rw [halfway, show TokenForge.units m.bits = m.units from rfl]
      push_cast
      linarith
  rw [candidate_eq, if_pos hreads]
  exact ⟨_, rfl⟩

/-- **A candidate reads back**, and it is one of the two points around the value. -/
theorem candidate_spec (h : m.candidate e = some d) :
    d.exponent = e ∧ Rounds m.bits (d.digits * grid e) ∧
      (d.digits * grid e ≤ m.units + grid e ∧ m.units < (d.digits + 1) * grid e) := by
  -- the points around the value
  have hpoints : ∀ n : Nat, m.units * Decimal.up (-e) / Decimal.scaled 1 e ≤ n ∧
      n ≤ m.units * Decimal.up (-e) / Decimal.scaled 1 e + 1 →
        n * grid e ≤ m.units + grid e ∧ m.units < (n + 1) * grid e := by
    rintro n ⟨hlow, hhigh⟩
    -- at most one step above the value
    have hle : n * Decimal.scaled 1 e ≤ m.units * Decimal.up (-e) + Decimal.scaled 1 e := by
      calc n * Decimal.scaled 1 e
          ≤ (m.units * Decimal.up (-e) / Decimal.scaled 1 e + 1) * Decimal.scaled 1 e :=
            Nat.mul_le_mul_right _ hhigh
        _ = m.units * Decimal.up (-e) / Decimal.scaled 1 e * Decimal.scaled 1 e +
            Decimal.scaled 1 e := Nat.succ_mul _ _
        _ ≤ m.units * Decimal.up (-e) + Decimal.scaled 1 e :=
            Nat.add_le_add_right (Nat.div_mul_le_self _ _) _
    -- and less than one below it
    have hlt : m.units * Decimal.up (-e) < (n + 1) * Decimal.scaled 1 e :=
      (Nat.div_lt_iff_lt_mul (scaled_pos e)).mp (Nat.lt_succ_of_le hlow)
    have hle : (n * (Decimal.scaled 1 e : Nat) : ℚ) ≤
        m.units * (Decimal.up (-e) : Nat) + (Decimal.scaled 1 e : Nat) := by exact_mod_cast hle
    have hlt : (m.units * (Decimal.up (-e) : Nat) : ℚ) < (n + 1) * (Decimal.scaled 1 e : Nat) := by
      exact_mod_cast hlt
    rw [cast_scaled] at hle hlt
    constructor
    · refine le_of_mul_le_mul_right ?_ (cast_up_pos (-e))
      linarith
    · refine lt_of_mul_lt_mul_right ?_ (cast_up_pos (-e)).le
      linarith
  rw [candidate_eq] at h
  split at h
  · next hreads =>
    obtain rfl := Option.some.inj h
    exact ⟨rfl, (readsBack_iff_grid m _ e).mp hreads, hpoints _ (nearerPoint_bounds _ _)⟩
  · split at h
    · next hreads =>
      obtain rfl := Option.some.inj h
      exact ⟨rfl, (readsBack_iff_grid m _ e).mp hreads, hpoints _ (otherPoint_bounds _ _)⟩
    · exact absurd h (by simp)

/-! ### The leading digit -/

/-- A number has as many digits as the power of ten below it says. -/
theorem pow_le_of_length_toDigits {n : Nat} (hn : n ≠ 0) :
    10 ^ ((Nat.toDigits 10 n).length - 1) ≤ n ∧ n < 10 ^ (Nat.toDigits 10 n).length := by
  have hpos : 0 < (Nat.toDigits 10 n).length := Nat.length_toDigits_pos
  refine ⟨?_, (Nat.length_toDigits_le_iff (by decide) hpos).mp le_rfl⟩
  rcases Nat.eq_zero_or_pos ((Nat.toDigits 10 n).length - 1) with hone | hmore
  · rw [hone]
    exact Nat.one_le_iff_ne_zero.mpr hn
  · by_contra hlt
    have hle := (Nat.length_toDigits_le_iff (by decide) hmore).mpr (Nat.not_le.mp hlt)
    omega

theorem units_pos (hm : m.bits ≠ 0) : 0 < m.units :=
  units_strictMono (Nat.pos_of_ne_zero hm)

/-- The leading digit is found by counting the digits of the value times `10 ^ 330`. -/
theorem leadingExponent_eq (m : Magnitude) :
    m.leadingExponent =
      ((Nat.toDigits 10 (m.units * Nat.pow 10 330 / unitsPerOne)).length : Int) -
        ((330 : Nat) + 1) := by
  unfold leadingExponent unitsPerOne
  rfl

/-- **The leading digit is on the power of ten that is found for it.** -/
theorem leadingExponent_spec (hm : m.bits ≠ 0) :
    grid m.leadingExponent ≤ m.units ∧ m.units < grid (m.leadingExponent + 1) := by
  -- all that matters of the factor is that it makes every value one at least
  obtain ⟨shift, hshift⟩ : ∃ k : Nat, k = 330 := ⟨330, rfl⟩
  have hlarge : unitsPerOne ≤ Nat.pow 10 shift := (unitsPerOne_lt_pow (by omega)).le
  rw [leadingExponent_eq, ← hshift]
  clear hshift
  have hone : 1 ≤ m.units * Nat.pow 10 shift / unitsPerOne := by
    rw [Nat.le_div_iff_mul_le unitsPerOne_pos, Nat.one_mul]
    exact hlarge.trans (Nat.le_mul_of_pos_left _ (units_pos hm))
  have hscale : (0 : ℚ) < 10 ^ shift := by positivity
  have hcast : ((m.units * Nat.pow 10 shift : Nat) : ℚ) = 10 ^ shift * m.units := by
    rw [Nat.pow_eq]
    push_cast
    ring
  obtain ⟨hlow, hhigh⟩ := pow_le_of_length_toDigits (Nat.one_le_iff_ne_zero.mp hone)
  have hpos : 0 < (Nat.toDigits 10 (m.units * Nat.pow 10 shift / unitsPerOne)).length :=
    Nat.length_toDigits_pos
  rw [Nat.le_div_iff_mul_le unitsPerOne_pos] at hlow
  rw [Nat.div_lt_iff_lt_mul unitsPerOne_pos] at hhigh
  -- the length of the digits counts now, no longer the number
  generalize (Nat.toDigits 10 (m.units * Nat.pow 10 shift / unitsPerOne)).length = len
    at hlow hhigh hpos ⊢
  constructor
  · refine le_of_mul_le_mul_left ?_ hscale
    rw [← grid_add, ← hcast, show (len : Int) - (shift + 1) + shift = (len - 1 : Nat) by omega,
      grid_natCast]
    exact_mod_cast hlow
  · refine lt_of_mul_lt_mul_left ?_ hscale.le
    rw [← grid_add, ← hcast, show (len : Int) - (shift + 1) + 1 + shift = (len : Nat) by omega,
      grid_natCast]
    exact_mod_cast hhigh

/-! ### The search -/

/-- **A grid is fine** if its steps are less than the distances to both neighbours. -/
def IsFine (m : Magnitude) (e : Int) : Prop :=
  grid e < m.units - TokenForge.units (m.bits - 1) ∧
    grid e < TokenForge.units (m.bits + 1) - m.units

/-- Neighbours are a unit apart at least. -/
theorem isFine_of_lt_one (hm : m.bits ≠ 0) (h : grid e < 1) : m.IsFine e := by
  have hbefore : TokenForge.units (m.bits - 1) + 1 ≤ m.units :=
    units_strictMono (Nat.sub_one_lt hm)
  have hafter : m.units + 1 ≤ TokenForge.units (m.bits + 1) := units_lt_succ m.bits
  have hbefore : (TokenForge.units (m.bits - 1) + 1 : ℚ) ≤ m.units := by exact_mod_cast hbefore
  have hafter : (m.units + 1 : ℚ) ≤ TokenForge.units (m.bits + 1) := by exact_mod_cast hafter
  constructor <;> linarith

/-- A magnitude is not nearer to the next one than one part in `2 ^ 53`. -/
theorem cast_units_le_succ (b : Nat) :
    ((2 : ℚ) ^ 53 * TokenForge.units b) ≤ (2 ^ 53 - 1) * TokenForge.units (b + 1) := by
  have hcast : ((2 ^ 53 * TokenForge.units b : Nat) : ℚ) ≤
      ((2 ^ 53 - 1) * TokenForge.units (b + 1) : Nat) := by exact_mod_cast units_le_succ b
  push_cast at hcast
  linarith

/-- As `2 ^ 53` distances to a neighbour reach the magnitude, sixteen more digits are enough. -/
theorem isFine_of_le (hm : m.bits ≠ 0) (h : 10 ^ 16 * grid e ≤ m.units) : m.IsFine e := by
  have hpos := grid_pos e
  have hbits : m.bits - 1 + 1 = m.bits := Nat.succ_pred_eq_of_ne_zero hm
  have hunits : m.units = TokenForge.units m.bits := rfl
  have hbefore := cast_units_le_succ (m.bits - 1)
  have hafter := cast_units_le_succ m.bits
  rw [hbits, ← hunits] at hbefore
  rw [← hunits] at hafter
  have hnext : (m.units : ℚ) < TokenForge.units (m.bits + 1) := by
    exact_mod_cast units_lt_succ m.bits
  constructor <;> linarith

theorem IsFine.exists_candidate (h : m.IsFine e) : ∃ d, m.candidate e = some d :=
  Magnitude.exists_candidate h.1 h.2

/-- **The search finds what the first grid with a candidate has**, if it goes on as far as that. -/
theorem searchFrom_spec {lead : Int} {fuel n last : Nat} (hn : n ≤ last) (hlast : last < n + fuel)
    (hsome : ∃ d, m.candidate (lead - last) = some d) :
    ∃ d k, m.searchFrom lead fuel n = some d ∧ k ≤ last ∧
      m.candidate (lead - (k : Nat)) = some d := by
  induction fuel generalizing n with
  | zero => omega
  | succ fuel ih =>
    rw [searchFrom]
    cases hcandidate : m.candidate (lead - n) with
    | some d => exact ⟨d, n, rfl, hn, hcandidate⟩
    | none =>
      -- the grid has no candidate, so it is not the last
      have hne : n ≠ last := by
        rintro rfl
        obtain ⟨d, hd⟩ := hsome
        exact absurd (hcandidate.symm.trans hd) (by simp)
      exact ih (by omega) (by omega)

/-- The number of digits that are enough, less one, and the power of ten of the last. -/
theorem exists_last (hm : m.bits ≠ 0) :
    ∃ last : Nat, last ≤ 16 ∧ -324 ≤ m.leadingExponent - last ∧
      m.IsFine (m.leadingExponent - last) := by
  obtain ⟨hlow, hhigh⟩ := leadingExponent_spec hm
  have hleast : grid (-324) < 1 := grid_neg_lt_one (le_refl 324)
  -- the leading digit is not below the least power of ten
  have hlead : -324 ≤ m.leadingExponent := by
    by_contra hlt
    have hle : grid (m.leadingExponent + 1) ≤ grid (-324) := grid_mono (by omega)
    have hone : (1 : ℚ) ≤ m.units := by exact_mod_cast units_pos hm
    linarith
  -- seventeen digits, or as many as there are down to the least power of ten
  rcases le_total (-324) (m.leadingExponent - 16) with hfar | hnear
  · refine ⟨16, le_rfl, hfar, isFine_of_le hm ?_⟩
    rw [← grid_add, show m.leadingExponent - (16 : Nat) + (16 : Nat) = m.leadingExponent by omega]
    exact hlow
  · refine ⟨(m.leadingExponent + 324).toNat, by omega, by omega, isFine_of_lt_one hm ?_⟩
    rw [show m.leadingExponent - ((m.leadingExponent + 324).toNat : Nat) = -324 by omega]
    exact hleast

end Magnitude

/-! ### The decimal that is written -/

namespace Decimal

/-- Zeros at the end may go: the value is the same. -/
theorem trim_go_spec (fuel : Nat) (d : Decimal) :
    (trim.go fuel d).value = d.value ∧ (d.digits ≠ 0 → (trim.go fuel d).digits ≠ 0) ∧
      (trim.go fuel d).digits ≤ d.digits ∧ d.exponent ≤ (trim.go fuel d).exponent := by
  induction fuel generalizing d with
  | zero => exact ⟨rfl, id, le_rfl, le_rfl⟩
  | succ fuel ih =>
    rw [trim.go]
    split
    · next hzero =>
      obtain ⟨hvalue, hne, hdigits, hexponent⟩ := ih ⟨d.digits / 10, d.exponent + 1⟩
      -- nothing is lost, as the last digit is a zero
      have hten : d.digits = d.digits / 10 * 10 := by omega
      refine ⟨hvalue.trans ?_, fun h => hne (by dsimp only; omega), by dsimp only at hdigits; omega,
        by dsimp only at hexponent; omega⟩
      rw [value, value, zpow_add₀ (by norm_num), zpow_one]
      conv_rhs => rw [hten]
      push_cast
      ring
    · exact ⟨rfl, id, le_rfl, le_rfl⟩

end Decimal

/-- **The shortest decimal of a magnitude rounds to it.** It has seventeen digits at most, none
below `10 ^ (-324)`. -/
theorem Magnitude.rounds_shortest {m : Magnitude} (hm : m.bits ≠ 0) :
    Rounds m.bits (m.shortest.value * unitsPerOne) ∧ m.shortest.digits ≠ 0 ∧
      m.shortest.digits ≤ 10 ^ 17 ∧ -324 ≤ m.shortest.exponent := by
  -- the search finds a decimal that reads back, with no more digits than are enough
  obtain ⟨last, hlast, hleast, hfine⟩ := exists_last hm
  have hfuel : last < 0 + 17 := by omega
  obtain ⟨d, k, hsearch, hk, hd⟩ := searchFrom_spec (Nat.zero_le last) hfuel hfine.exists_candidate
  obtain ⟨hexponent, hrounds, habove, hbelow⟩ := candidate_spec hd
  obtain ⟨hlow, hhigh⟩ := leadingExponent_spec hm
  have hshortest : m.shortest = Decimal.trim.go (Nat.log2 d.digits) d := by
    rw [shortest, hsearch]
    rfl
  obtain ⟨hvalue, hne, hdigits, hraised⟩ := Decimal.trim_go_spec (Nat.log2 d.digits) d
  rw [← hshortest] at hvalue hne hdigits hraised
  have hpos := grid_pos (m.leadingExponent - k)
  -- the leading digit, in steps of the grid where the decimal was found
  have hfirst : grid m.leadingExponent = 10 ^ k * grid (m.leadingExponent - k) := by
    rw [← grid_add, sub_add_cancel]
  have hnext : grid (m.leadingExponent + 1) = 10 ^ (k + 1) * grid (m.leadingExponent - k) := by
    rw [← grid_add]
    congr 1
    push_cast
    ring
  refine ⟨?_, hne ?_, hdigits.trans ?_, by omega⟩
  · rw [hvalue, Decimal.value, hexponent, mul_assoc]
    exact hrounds
  · -- the grid has a point between zero and the value
    rintro hzero
    have hone : (1 : ℚ) ≤ 10 ^ k := one_le_pow₀ (by norm_num)
    have hle := mul_le_mul_of_nonneg_right hone hpos.le
    rw [hzero] at hbelow
    push_cast at hbelow
    linarith
  · have hlt : (d.digits : ℚ) < 10 ^ (k + 1) + 1 := by
      refine lt_of_mul_lt_mul_right ?_ hpos.le
      linarith
    have hlt : d.digits < 10 ^ (k + 1) + 1 := by exact_mod_cast hlt
    calc d.digits ≤ 10 ^ (k + 1) := Nat.le_of_lt_succ hlt
      _ ≤ 10 ^ 17 := Nat.pow_le_pow_right (by decide) (by omega)

end TokenForge
