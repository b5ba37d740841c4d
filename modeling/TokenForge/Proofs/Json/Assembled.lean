import TokenForge.Json.Numeral
import TokenForge.Proofs.Number.Shortest

/-!
# How far off a number is read

A significand and a power of ten are put together by rounding each of them, and rounding once more
what they make. The bits that are found are as many places off the nearest ones, at most, as numbers
were rounded on the way (`assemble_places`): none where both are numbers of 53 bits, one for a
longer significand, one for a power beyond `10 ^ 22`, and one for a quotient that is divided a
second time.

* `roundings` — how many numbers are rounded on the way;
* `Magnitude.exists_natural` — natural numbers as magnitudes;
* `Magnitude.mul?_spec` and `Magnitude.div?_spec` — one product, one quotient;
* `divideTwice` — what a power below `10 ^ (-308)` makes.
-/

namespace TokenForge

/-! ### Magnitudes -/

namespace Magnitude

variable {m : Magnitude} {x : ℚ} {b : Nat}

/-- The magnitude with the given bits, if they stand for one. -/
def ofBits? (b : Nat) : Option Magnitude :=
  if h : b < infiniteBits then some { bits := b, finite := h } else none

theorem ofBits?_of_lt (h : b < infiniteBits) : ofBits? b = some { bits := b, finite := h } :=
  dif_pos h

/-- The bits found for a ratio are those that it rounds to. -/
theorem exists_ofRatio? (num : Nat) {den : Nat} (hden : 0 < den) :
    ∃ b, Rounds b ((num * unitsPerOne : Nat) / den) ∧ ofRatio? num den = ofBits? b :=
  ⟨nearestBits num den, rounds_nearestBits num hden, rfl⟩

/-- One is above the subnormal numbers, the greatest power of the table is in range, and the next
power of ten is not. -/
theorem halfway_table :
    halfway (2 ^ 52) < 2 * unitsPerOne ∧
      2 * (10 ^ Json.maxPower * unitsPerOne) < halfway (infiniteBits - 1) ∧
      halfway (infiniteBits - 1) < 2 * (10 ^ (Json.maxPower + 1) * unitsPerOne) := by
  decide +kernel

theorem unitsPerOne_cast_pos : (0 : ℚ) < unitsPerOne := by
  exact_mod_cast unitsPerOne_pos

/-- **One product.** -/
theorem mul?_spec (m n : Magnitude) :
    ∃ b, Rounds b (m.units * n.units / unitsPerOne) ∧ m.mul? n = ofBits? b := by
  -- both factors are counted in units, so their product is counted in squares of units
  have hscale : Nat.pow 2 (2 * 1074) = unitsPerOne * unitsPerOne := by decide +kernel
  have hpos : 0 < Nat.pow 2 (2 * 1074) := by
    rw [hscale]
    exact Nat.mul_pos unitsPerOne_pos unitsPerOne_pos
  obtain ⟨b, hb, hbits⟩ := exists_ofRatio? (m.units * n.units) hpos
  refine ⟨b, ?_, hbits⟩
  have hone := unitsPerOne_cast_pos
  rw [hscale] at hb
  push_cast at hb
  have hvalue : (m.units * n.units * unitsPerOne / (unitsPerOne * unitsPerOne) : ℚ) =
      m.units * n.units / unitsPerOne := by field_simp
  rwa [hvalue] at hb

/-- **One quotient.** -/
theorem div?_spec (m : Magnitude) {n : Magnitude} (hn : 0 < n.units) :
    ∃ b, Rounds b (m.units * unitsPerOne / n.units) ∧ m.div? n = ofBits? b := by
  obtain ⟨b, hb, hbits⟩ := exists_ofRatio? m.units hn
  push_cast at hb
  exact ⟨b, hb, hbits⟩

/-- **A natural number as a magnitude**: it is close, and itself if it has 53 bits at most, zeros at
the end not counted. -/
theorem exists_natural {n : Nat} (hn : n ≤ 10 ^ Json.maxPower) :
    ∃ f, ofRatio? n 1 = some f ∧ Close 1 f.units (n * unitsPerOne) ∧
      ∀ q s, n = q * 2 ^ s → q ≤ 2 ^ 53 → (f.units : ℚ) = n * unitsPerOne := by
  obtain ⟨b, hb, hbits⟩ := exists_ofRatio? n Nat.one_pos
  rw [Nat.cast_one, div_one, Nat.cast_mul] at hb
  -- the number is below the half-way point behind the greatest magnitude
  have hfinite : b < infiniteBits := by
    have hvalue : 2 * (n * unitsPerOne) < halfway (infiniteBits - 1) :=
      lt_of_le_of_lt (Nat.mul_le_mul_left 2 (Nat.mul_le_mul_right _ hn)) halfway_table.2.1
    have hle : b ≤ infiniteBits - 1 := hb.bits_le (by exact_mod_cast hvalue)
    have hpos : 0 < infiniteBits := by decide
    omega
  have hexact : ∀ q s, n = q * 2 ^ s → q ≤ 2 ^ 53 → (TokenForge.units b : ℚ) = n * unitsPerOne := by
    intro q s hq hbound
    -- some bits have this very value, and it rounds to no others
    obtain ⟨c, hc⟩ := exists_units_natural s hbound
    have hvalue : ((TokenForge.units c : Nat) : ℚ) = n * unitsPerOne := by
      rw [hc, ← hq, Nat.cast_mul]
    have hself := Rounds.units_self c
    rw [hvalue] at hself
    rw [hb.unique hself, hvalue]
  refine ⟨{ bits := b, finite := hfinite }, hbits.trans (ofBits?_of_lt hfinite), ?_, hexact⟩
  -- a zero is itself, and every other number is far above the subnormal ones
  rcases Nat.eq_zero_or_pos n with rfl | hpos
  · have hzero := hexact 0 0 rfl (Nat.zero_le _)
    have hclose := Close.refl ((0 : Nat) * unitsPerOne : ℚ)
    rw [← hzero] at hclose ⊢
    exact hclose.mono (Nat.zero_le 1) (by positivity) (by positivity)
  · have hnormal : halfway (2 ^ 52) < 2 * (n * unitsPerOne) :=
      halfway_table.1.trans_le (Nat.mul_le_mul_left 2 (Nat.le_mul_of_pos_left _ hpos))
    exact hb.close (hb.lt_bits (by exact_mod_cast hnormal))

/-- **The power of ten of the table.** -/
theorem exists_powTen {k : Nat} (hk : k ≤ Json.maxPower) :
    ∃ p, powTen? k = some p ∧ 0 < p.units ∧
      Close (if k ≤ 22 then 0 else 1) p.units ((10 : ℚ) ^ k * unitsPerOne) := by
  have hle : 10 ^ k ≤ 10 ^ Json.maxPower := Nat.pow_le_pow_right (by decide) hk
  obtain ⟨p, hp, hclose, hexact⟩ := exists_natural hle
  rw [← Nat.pow_eq] at hp
  have hcast : ((10 ^ k : Nat) : ℚ) = (10 : ℚ) ^ k := by
    push_cast
    rfl
  rw [hcast] at hclose hexact
  refine ⟨p, hp, ?_, ?_⟩
  · -- what is close to a positive value is positive
    have hone : (0 : ℚ) < 10 ^ k * unitsPerOne := mul_pos (by positivity) unitsPerOne_cast_pos
    have hpos : (0 : ℚ) < p.units * spread ^ 1 := hone.trans_le hclose.2
    have hunits : (0 : ℚ) < p.units :=
      pos_of_mul_pos_left hpos (pow_pos (one_pos.trans one_lt_spread) 1).le
    exact_mod_cast hunits
  · split
    · next hsmall =>
      -- `10 ^ k` is `5 ^ k` with `k` zeros behind it
      have hten : 10 ^ k = 5 ^ k * 2 ^ k := by rw [← Nat.mul_pow]
      have hfive : 5 ^ k ≤ 2 ^ 53 := (Nat.pow_le_pow_right (by decide) hsmall).trans (by decide)
      rw [hexact _ _ hten hfive]
      exact .refl _
    · exact hclose

end Magnitude

namespace Json

open Magnitude

/-! ### The roundings on the way -/

/-- **How many numbers are rounded before the last product or quotient**: a significand of more than
53 bits, a power of ten that is no number of 53 bits with zeros behind it, and the first quotient of
two. -/
def roundings (significand : Nat) (power : Int) : Nat :=
  (if significand ≤ 2 ^ 53 then 0 else 1) + (if power.natAbs ≤ 22 then 0 else 1) +
    (if power < -(maxPower : Nat) then 1 else 0)

theorem maxSignificand_le : maxSignificand ≤ 10 ^ maxPower :=
  calc maxSignificand ≤ 10 ^ 20 := by decide
    _ ≤ 10 ^ maxPower := Nat.pow_le_pow_right (by decide) (by decide)

/-- **The significand as a magnitude**: itself if it has 53 bits at most. -/
theorem exists_significand {s : Nat} (hs : s ≤ maxSignificand) :
    ∃ f, ofRatio? s 1 = some f ∧
      Close (if s ≤ 2 ^ 53 then 0 else 1) f.units (s * unitsPerOne) := by
  obtain ⟨f, hf, hclose, hexact⟩ := exists_natural (hs.trans maxSignificand_le)
  refine ⟨f, hf, ?_⟩
  split
  · next hsmall =>
    rw [hexact s 0 (by simp) hsmall]
    exact .refl _
  · exact hclose

/-- A power of the table is multiplied by, and nothing is divided. -/
theorem roundings_natCast (s k : Nat) :
    roundings s k = (if s ≤ 2 ^ 53 then 0 else 1) + (if k ≤ 22 then 0 else 1) := by
  have hp : ¬((k : Int) < -(maxPower : Nat)) := by omega
  rw [roundings, Int.natAbs_natCast, if_neg hp, Nat.add_zero]

/-- A power within the table is divided by once. -/
theorem roundings_neg {s k : Nat} (hk : k ≤ maxPower) :
    roundings s (-k) = (if s ≤ 2 ^ 53 then 0 else 1) + (if k ≤ 22 then 0 else 1) := by
  have hp : ¬(-(k : Int) < -(maxPower : Nat)) := by omega
  rw [roundings, Int.natAbs_neg, Int.natAbs_natCast, if_neg hp, Nat.add_zero]

/-- A power beyond the table is rounded itself, and so is the first of two quotients. -/
theorem roundings_far {s k : Nat} (hk : 0 < k) :
    roundings s (-(maxPower + k : Nat)) = (if s ≤ 2 ^ 53 then 0 else 1) + 1 + 1 := by
  have hp : -((maxPower + k : Nat) : Int) < -(maxPower : Nat) := by omega
  have hlarge : ¬maxPower + k ≤ 22 := by
    have htable : 22 < maxPower := by decide
    omega
  rw [roundings, Int.natAbs_neg, Int.natAbs_natCast, if_pos hp, if_neg hlarge]

/-! ### What is put together -/

section Assemble

variable {s k b : Nat} {f t q : Magnitude}

/-- A power that is not negative is one product. -/
theorem assemble_mul (hf : ofRatio? s 1 = some f) (ht : powTen? k = some t) (hk : k ≤ maxPower) :
    assemble s k = f.mul? t := by
  have hp : ¬((k : Int) < 0) := by omega
  have htable : (k : Int) ≤ (maxPower : Nat) := by exact_mod_cast hk
  rw [assemble, hf, Option.bind_eq_bind, Option.bind_some, if_neg hp, if_pos htable,
    Int.toNat_natCast, ht, Option.bind_some]

/-- A power within the table is one quotient. -/
theorem assemble_div (hf : ofRatio? s 1 = some f) (ht : powTen? k = some t) (hk : k ≤ maxPower)
    (hpos : 0 < k) : assemble s (-k) = f.div? t := by
  have hp : -(k : Int) < 0 := by omega
  rw [assemble, hf, Option.bind_eq_bind, Option.bind_some, if_pos hp, Int.natAbs_neg,
    Int.natAbs_natCast, divideDown, if_pos hk, ht, Option.bind_eq_bind, Option.bind_some]

/-- What a power below `10 ^ (-308)` makes: a quotient by the greatest power of the table, and one
by what is left of the power. -/
def divideTwice (s k : Nat) : Option Magnitude := do
  let f ← ofRatio? s 1
  let q ← f.div? (← powTen? maxPower)
  q.div? (← powTen? k)

/-- The two quotients, with the significand found. -/
theorem divideTwice_of_significand (hf : ofRatio? s 1 = some f) :
    divideTwice s k =
      (powTen? maxPower).bind fun t => (f.div? t).bind fun q => (powTen? k).bind q.div? := by
  rw [divideTwice, hf, Option.bind_eq_bind, Option.bind_some]

/-- A division beyond the table is one by its greatest power and one by the rest. -/
theorem divideDown_far (hne : f.bits ≠ 0) (hpos : 0 < k) (hk : k ≤ maxPower) :
    divideDown f (maxPower + k) =
      (powTen? maxPower).bind fun t => (f.div? t).bind fun q => (powTen? k).bind q.div? := by
  have hfar : ¬maxPower + k ≤ maxPower := by omega
  have hrest : ∀ q : Magnitude, divideDown q (maxPower + k - maxPower) =
      (powTen? k).bind q.div? := fun q => by
    rw [Nat.add_sub_cancel_left, divideDown, if_pos hk, Option.bind_eq_bind]
  rw [divideDown, if_neg hfar, if_neg hne]
  simp only [hrest, Option.bind_eq_bind]

/-- The two quotients, with all parts found. -/
theorem divideTwice_eq (hf : ofRatio? s 1 = some f) (ht : powTen? maxPower = some t)
    (hq : f.div? t = some q) {u : Magnitude} (hu : powTen? k = some u) :
    divideTwice s k = q.div? u := by
  rw [divideTwice, hf, Option.bind_eq_bind, Option.bind_some, ht, Option.bind_some, hq,
    Option.bind_some, hu, Option.bind_some]

/-- **A quotient by a power beyond the table** is divided twice. -/
theorem assemble_far (hs : 0 < s) (hmax : s ≤ maxSignificand) (hpos : 0 < k) (hk : k ≤ maxPower) :
    assemble s (-(maxPower + k : Nat)) = divideTwice s k := by
  obtain ⟨f, hf, hclose⟩ := exists_significand hmax
  -- a significand that is not zero is close to a magnitude that is not zero either
  have hne : f.bits ≠ 0 := by
    intro hzero
    have hunits : f.units = 0 := by rw [Magnitude.units, hzero, units_zero]
    have hle := hclose.2
    have hspos : (0 : ℚ) < s := by exact_mod_cast hs
    have hvalue := mul_pos hspos unitsPerOne_cast_pos
    rw [hunits, Nat.cast_zero, zero_mul] at hle
    exact absurd hle (not_le.mpr hvalue)
  have hp : -((maxPower + k : Nat) : Int) < 0 := by omega
  rw [assemble, hf, Option.bind_eq_bind, Option.bind_some, if_pos hp, Int.natAbs_neg,
    Int.natAbs_natCast, divideDown_far hne hpos hk, divideTwice_of_significand hf]

/-- **The bits that are found** are off by as many places as numbers were rounded. -/
def Finds (s : Nat) (p : Int) (b : Nat) : Prop :=
  ∃ c, c ≤ b + roundings s p ∧ b ≤ c + roundings s p ∧ assemble s p = ofBits? c

/-- **What a product finds.** -/
theorem finds_of_nonneg (hs : s ≤ maxSignificand) (hk : k ≤ maxPower)
    (h : Rounds b (s * grid k)) : Finds s k b := by
  obtain ⟨f, hf, hfclose⟩ := exists_significand hs
  obtain ⟨t, ht, -, htclose⟩ := exists_powTen hk
  obtain ⟨c, hc, hbits⟩ := mul?_spec f t
  -- the product of two close magnitudes is as far off as both of them together
  have hclose : Close (roundings s k) (f.units * t.units / unitsPerOne) (s * grid k) := by
    rw [grid, zpow_natCast, ← mul_assoc, roundings_natCast]
    exact hfclose.mul_div_one htclose (Nat.cast_nonneg _) (Nat.cast_nonneg _) (Nat.cast_nonneg _)
      (by positivity) unitsPerOne_cast_pos
  exact ⟨c, hc.le_add h hclose, h.le_add hc hclose.symm, (assemble_mul hf ht hk).trans hbits⟩

/-- **What a quotient finds.** -/
theorem finds_of_neg (hs : s ≤ maxSignificand) (hk : k ≤ maxPower) (hpos : 0 < k)
    (h : Rounds b (s * grid (-k))) : Finds s (-k) b := by
  obtain ⟨f, hf, hfclose⟩ := exists_significand hs
  obtain ⟨t, ht, htpos, htclose⟩ := exists_powTen hk
  obtain ⟨c, hc, hbits⟩ := div?_spec f htpos
  -- and so is their quotient
  have hclose : Close (roundings s (-k)) (f.units * unitsPerOne / t.units) (s * grid (-k)) := by
    rw [grid, zpow_neg, zpow_natCast, ← mul_assoc, ← div_eq_mul_inv, roundings_neg hk]
    exact hfclose.mul_one_div htclose (Nat.cast_nonneg _) (Nat.cast_nonneg _)
      (by exact_mod_cast htpos) (by positivity) unitsPerOne_cast_pos
  exact ⟨c, hc.le_add h hclose, h.le_add hc hclose.symm, (assemble_div hf ht hk hpos).trans hbits⟩

/-- Where the first quotient is subnormal, there are few to look at. -/
theorem divideTwice_tiny : ∀ s < 3, 0 < s → ∀ k < 23, 0 < k →
    ((divideTwice s k).any fun m =>
      m.bits ≤ nearestBits s (10 ^ (maxPower + k)) + 2 &&
        nearestBits s (10 ^ (maxPower + k)) ≤ m.bits + 2) = true := by
  decide +kernel

/-- **What two quotients find, of the significands one and two**: every case is looked at. -/
theorem finds_tiny (hs : s < 3) (hspos : 0 < s) (hk : k < 23) (hpos : 0 < k)
    (h : Rounds b (s * grid (-(maxPower + k : Nat)))) :
    Finds s (-(maxPower + k : Nat)) b := by
  have hmax : s ≤ maxSignificand := by
    have htwo : 2 ≤ maxSignificand := by decide
    omega
  have htable : k ≤ maxPower := by
    have htwo : 22 ≤ maxPower := by decide
    omega
  -- the bits are those that the ratio rounds to, so the table holds them
  have hbits : b = nearestBits s (10 ^ (maxPower + k)) := by
    have hpower : 0 < 10 ^ (maxPower + k) := Nat.pow_pos (by decide)
    have hnearest := rounds_nearestBits s hpower
    have hvalue : ((s * unitsPerOne : Nat) / (10 ^ (maxPower + k) : Nat) : ℚ) =
        s * grid (-(maxPower + k : Nat)) := by
      rw [grid, zpow_neg, zpow_natCast]
      push_cast
      field_simp
    rw [hvalue] at hnearest
    exact h.unique hnearest
  have hany := divideTwice_tiny s hs hspos k hk hpos
  obtain ⟨m, hm, hplaces⟩ := (Option.any_eq_true _ _).mp hany
  rw [Bool.and_eq_true, decide_eq_true_eq, decide_eq_true_eq, ← hbits] at hplaces
  have hsmall : s ≤ 2 ^ 53 := by omega
  have hcount : roundings s (-(maxPower + k : Nat)) = 2 := by
    rw [roundings_far hpos, if_pos hsmall]
  refine ⟨m.bits, ?_, ?_, ?_⟩
  · rw [hcount]
    exact hplaces.1
  · rw [hcount]
    exact hplaces.2
  · rw [assemble_far hspos hmax hpos htable, hm, ofBits?_of_lt m.finite]

/-- The greatest power of the table. -/
def greatestPower : Magnitude := { bits := 0x7FE1CCF385EBC8A0, finite := by decide }

/-- Three of its parts are above the subnormal numbers, even if they are rounded down. -/
theorem greatestPower_spec :
    powTen? maxPower = some greatestPower ∧ unitsPerOne ≤ greatestPower.units ∧
      halfway (2 ^ 52) * greatestPower.units * 2 ^ 53 <
        6 * (unitsPerOne * unitsPerOne) * (2 ^ 53 - 1) := by
  decide +kernel

/-- A significand of three at least is so even as it is rounded. -/
theorem three_le_of_spread {x one : ℚ} (hs : 3 ≤ s) (hone : 0 < one) (hx : s * one ≤ x * spread) :
    3 * one * (2 ^ 53 - 1) ≤ x * 2 ^ 53 := by
  have hs : (3 : ℚ) ≤ s := by exact_mod_cast hs
  calc 3 * one * (2 ^ 53 - 1) ≤ s * one * (2 ^ 53 - 1) := by gcongr
    _ ≤ x * spread * (2 ^ 53 - 1) := by gcongr
    _ = x * 2 ^ 53 := by rw [spread, mul_assoc, div_mul_cancel₀ _ (by norm_num)]

/-- Of all others the first quotient is no subnormal number, and none that is out of range. -/
theorem normal_first {f t : Magnitude} (hs : 3 ≤ s)
    (hf : (s * unitsPerOne : ℚ) ≤ f.units * spread) (ht : powTen? maxPower = some t) :
    (halfway (2 ^ 52) : ℚ) < 2 * (f.units * unitsPerOne / t.units) ∧
      (f.units * unitsPerOne / t.units : ℚ) ≤ f.units := by
  obtain ⟨htable, hle, hlt⟩ := greatestPower_spec
  obtain rfl := Option.some.inj (htable.symm.trans ht)
  -- from here on the numbers are too large to be computed with, and their bounds are enough
  generalize greatestPower.units = d at hle hlt ⊢
  generalize halfway (2 ^ 52) = first at hlt ⊢
  have hone := unitsPerOne_cast_pos
  have hle : (unitsPerOne : ℚ) ≤ d := by exact_mod_cast hle
  have hd : (0 : ℚ) < d := hone.trans_le hle
  have hlt : (first * d * 2 ^ 53 : ℚ) < 6 * (unitsPerOne * unitsPerOne) * (2 ^ 53 - 1) := by
    have hcast : ((first * d * 2 ^ 53 : Nat) : ℚ) <
        (6 * (unitsPerOne * unitsPerOne) * (2 ^ 53 - 1) : Nat) := by exact_mod_cast hlt
    push_cast at hcast
    linarith
  have hsig := three_le_of_spread hs hone hf
  generalize (unitsPerOne : ℚ) = one at hle hlt hone hsig ⊢
  constructor
  · rw [← mul_div_assoc, lt_div_iff₀ hd]
    have hprod := mul_le_mul_of_nonneg_right hsig hone.le
    linarith
  · rw [div_le_iff₀ hd]
    exact mul_le_mul_of_nonneg_left hle (Nat.cast_nonneg _)

/-- **What two quotients find, of all other significands.** The first quotient is no subnormal
number, so it is as close as its parts, and the second one is as close as that. -/
theorem finds_normal (hmax : s ≤ maxSignificand) (hs : 3 ≤ s) (hk : k < 23) (hpos : 0 < k)
    (h : Rounds b (s * grid (-(maxPower + k : Nat)))) :
    Finds s (-(maxPower + k : Nat)) b := by
  have htable : k ≤ maxPower := by
    have htwo : 22 ≤ maxPower := by decide
    omega
  have hlarge : ¬maxPower ≤ 22 := by decide
  have hsmall : k ≤ 22 := by omega
  have hone := unitsPerOne_cast_pos
  obtain ⟨f, hf, hfclose⟩ := exists_significand hmax
  obtain ⟨t, ht, htpos, htclose⟩ := exists_powTen (le_refl maxPower)
  obtain ⟨u, hu, hupos, huclose⟩ := exists_powTen htable
  rw [if_neg hlarge] at htclose
  rw [if_pos hsmall] at huclose
  have hweak := hfclose.mono (k := 1) (by split <;> omega) (by positivity) (by positivity)
  obtain ⟨hnormal, hless⟩ := normal_first hs (by rw [← pow_one spread]; exact hweak.2) ht
  -- the first quotient
  obtain ⟨c, hc, hquotient⟩ := div?_spec f htpos
  -- the quotient is no greater than the significand, so it is in range
  have hfinite : c < infiniteBits := (hc.mono (Rounds.units_self f.bits) hless).trans_lt f.finite
  rw [ofBits?_of_lt hfinite] at hquotient
  have hqclose := (hc.close (hc.lt_bits hnormal)).trans
    (hfclose.mul_one_div htclose (Nat.cast_nonneg _) (Nat.cast_nonneg _)
      (by exact_mod_cast htpos) (by positivity) hone)
  -- and the second
  obtain ⟨e, he, hbits⟩ := div?_spec { bits := c, finite := hfinite } hupos
  have hclose := hqclose.mul_one_div huclose (Nat.cast_nonneg _) (by positivity)
    (by exact_mod_cast hupos) (by positivity) hone
  -- the roundings of the two quotients together are those that are counted
  have hcount : 1 + ((if s ≤ 2 ^ 53 then 0 else 1) + 1) + 0 =
      roundings s (-(maxPower + k : Nat)) := by
    rw [roundings_far hpos]
    omega
  have hvalue : (s / 10 ^ maxPower / 10 ^ k * unitsPerOne : ℚ) =
      s * grid (-(maxPower + k : Nat)) := by
    rw [grid, zpow_neg, zpow_natCast, pow_add]
    field_simp
  rw [hcount, hvalue] at hclose
  refine ⟨e, he.le_add h hclose, h.le_add he hclose.symm, ?_⟩
  rw [assemble_far (by omega) hmax hpos htable, divideTwice_eq hf ht hquotient hu, hbits]

/-- A zero stays a zero, however far it is divided. -/
theorem finds_zero (hpos : 0 < k) (h : Rounds b (((0 : Nat) : ℚ) * grid (-(maxPower + k : Nat)))) :
    Finds 0 (-(maxPower + k : Nat)) b := by
  have hself := Rounds.units_self 0
  rw [units_zero, Nat.cast_zero] at hself
  obtain rfl : b = 0 := by
    rw [Nat.cast_zero, zero_mul] at h
    exact h.unique hself
  have hzero : ofRatio? 0 1 = some zero := by
    obtain ⟨b, hb, hbits⟩ := exists_ofRatio? 0 Nat.one_pos
    rw [Nat.zero_mul, Nat.cast_zero, zero_div] at hb
    rw [hbits, hb.unique hself]
    rfl
  have hp : -((maxPower + k : Nat) : Int) < 0 := by omega
  have hfar : ¬maxPower + k ≤ maxPower := by omega
  have hbits : zero.bits = 0 := rfl
  refine ⟨0, by omega, by omega, ?_⟩
  rw [assemble, hzero, Option.bind_eq_bind, Option.bind_some, if_pos hp, Int.natAbs_neg,
    Int.natAbs_natCast, divideDown, if_neg hfar, if_pos hbits]
  rfl

/-- **How far off a number is read.** A significand of 64 bits and a power of ten from `10 ^ (-330)`
to `10 ^ 308` make a number that is no more places off the nearest one than numbers were rounded on
the way. -/
theorem assemble_places {p : Int} (hmax : s ≤ maxSignificand)
    (hlow : -(maxPower + 22 : Nat) ≤ p) (hhigh : p ≤ (maxPower : Nat))
    (h : Rounds b (s * grid p)) : Finds s p b := by
  rcases le_or_gt 0 p with hnonneg | hneg
  · obtain ⟨k, rfl⟩ := Int.eq_ofNat_of_zero_le hnonneg
    exact finds_of_nonneg hmax (by omega) h
  · rcases le_or_gt (-(maxPower : Nat) : Int) p with hnear | hfar
    · obtain ⟨k, hk⟩ := Int.eq_ofNat_of_zero_le (neg_nonneg.mpr hneg.le)
      obtain rfl : p = -(k : Int) := by omega
      exact finds_of_neg hmax (by omega) (by omega) h
    · -- the power is beyond the table, and so there are two quotients
      obtain ⟨k, hk⟩ := Int.eq_ofNat_of_zero_le (show 0 ≤ -p - (maxPower : Nat) by omega)
      obtain rfl : p = -((maxPower + k : Nat) : Int) := by omega
      rcases Nat.eq_zero_or_pos s with rfl | hspos
      · exact finds_zero (by omega) h
      · rcases Nat.lt_or_ge s 3 with htiny | hlarge
        · exact finds_tiny htiny hspos (by omega) (by omega) h
        · exact finds_normal hmax hlarge (by omega) (by omega) h

end Assemble

end Json

end TokenForge
