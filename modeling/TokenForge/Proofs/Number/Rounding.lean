import Mathlib.Algebra.Order.Field.Rat
import Mathlib.Data.Nat.Log
import Mathlib.Tactic.FieldSimp
import Mathlib.Tactic.GCongr
import Mathlib.Tactic.Linarith
import Mathlib.Tactic.NormNum
import Mathlib.Tactic.Positivity
import Mathlib.Tactic.Ring
import TokenForge.Number.Binary64

/-!
# Rounding to binary64

Values are counted in units of `2 ^ (-1074)` here, as rational numbers. A value rounds to the bits
whose own value is nearest to it: it lies between the half-way points to both neighbours, and on
one of them only if the bits are even. There are such bits for every value (`rounds_nearestBits`),
and only one (`Rounds.unique`).

A value and what it rounds to are *close*, if it is not too small: neither exceeds the other by more
than one binary64 number exceeds the one before it. Products and quotients of close values are close
again, and so the bits that a result rounds to are off by no more places than were roundings on the
way to it.

* `exists_block` — bits and their value by the block of `2 ^ 52` that they are in;
* `Rounds` — a value rounds to some bits;
* `Close` — values at most so many roundings apart;
* `Rounds.close` and `Rounds.le_add` — from values to close values, and from these to bits.
-/

namespace TokenForge

/-! ### Bits and their values -/

/-- Subnormal bits are their own value. -/
theorem units_of_lt {q : Nat} (h : q < 2 ^ 52) : units q = q := if_pos h

/-- The value of bits in the block `s` with the significand `q`, the first of the next block
among them. -/
theorem units_block {q : Nat} (s : Nat) (hlow : 2 ^ 52 ≤ q) (hhigh : q ≤ 2 ^ 53) :
    units (q + s * 2 ^ 52) = q * 2 ^ s := by
  have hlarge : ¬q + s * 2 ^ 52 < 2 ^ 52 := by omega
  rw [units, Nat.pow_eq, if_neg hlarge, Nat.pow_eq]
  -- inside the block the quotient tells it; the first of the next block has all bits of the
  -- significand at zero
  rcases Nat.lt_or_eq_of_le hhigh with hlt | rfl
  · have hdiv : (q + s * 2 ^ 52) / 2 ^ 52 = s + 1 := by omega
    have hmod : (q + s * 2 ^ 52) % 2 ^ 52 = q - 2 ^ 52 := by omega
    rw [hdiv, hmod, Nat.add_sub_cancel, Nat.add_sub_cancel' hlow]
  · have hdiv : (2 ^ 53 + s * 2 ^ 52) / 2 ^ 52 = s + 2 := by omega
    have hmod : (2 ^ 53 + s * 2 ^ 52) % 2 ^ 52 = 0 := by omega
    rw [hdiv, hmod, Nat.add_zero, Nat.add_sub_assoc (by decide), Nat.pow_add]
    ring

/-- **Some bits and the next in their block.** Below the first block, and in it, a unit is the
distance between neighbours; every further block doubles it. -/
theorem exists_block (b : Nat) :
    ∃ q s, b = q + s * 2 ^ 52 ∧ q < 2 ^ 53 ∧ (2 ^ 52 ≤ b → 2 ^ 52 ≤ q) ∧
      units b = q * 2 ^ s ∧ units (b + 1) = (q + 1) * 2 ^ s := by
  rcases Nat.lt_or_ge b (2 ^ 52) with hsmall | hlarge
  · -- subnormal bits, of which the last has the first normal ones behind it
    refine ⟨b, 0, by omega, by omega, fun h => absurd hsmall (Nat.not_lt.mpr h), ?_, ?_⟩
    · rw [units_of_lt hsmall, Nat.pow_zero, Nat.mul_one]
    · rcases Nat.lt_or_eq_of_le (Nat.succ_le_of_lt hsmall) with hlt | heq
      · rw [units_of_lt hlt, Nat.pow_zero, Nat.mul_one]
      · have hblock := units_block (q := b + 1) 0 (Nat.le_of_eq heq.symm) (by omega)
        rwa [Nat.zero_mul, Nat.add_zero] at hblock
  · -- the block is the quotient, less one as the subnormal numbers are two blocks in one
    have hb : b = (2 ^ 52 + b % 2 ^ 52) + (b / 2 ^ 52 - 1) * 2 ^ 52 := by omega
    refine ⟨2 ^ 52 + b % 2 ^ 52, b / 2 ^ 52 - 1, hb, by omega, fun _ => by omega, ?_, ?_⟩
    · conv_lhs => rw [hb]
      exact units_block _ (by omega) (by omega)
    · conv_lhs => rw [hb, Nat.add_right_comm]
      exact units_block _ (by omega) (by omega)

/-- Greater bits have a greater value. -/
theorem units_lt_succ (b : Nat) : units b < units (b + 1) := by
  obtain ⟨q, s, -, -, -, hb, hnext⟩ := exists_block b
  rw [hb, hnext]
  exact Nat.mul_lt_mul_of_pos_right (Nat.lt_succ_self q) (Nat.two_pow_pos s)

/-- **Bits order magnitudes by value.** -/
theorem units_strictMono : StrictMono units := strictMono_nat_of_lt_succ units_lt_succ

@[simp] theorem units_zero : units 0 = 0 := rfl

/-- **Neighbours are not too close**: `2 ^ 53` of their distances reach the greater one. -/
theorem units_le_succ (b : Nat) : 2 ^ 53 * units b ≤ (2 ^ 53 - 1) * units (b + 1) := by
  obtain ⟨q, s, -, hq, -, hb, hnext⟩ := exists_block b
  -- in a block the significands are neighbours, and there are no more than this
  have hfactor : 2 ^ 53 * q ≤ (2 ^ 53 - 1) * (q + 1) := by omega
  rw [hb, hnext, ← Nat.mul_assoc, ← Nat.mul_assoc]
  exact Nat.mul_le_mul_right _ hfactor

/-- Neighbours are as close as that only where a block ends, which is not at every number. -/
theorem units_lt_succ_or (b : Nat) :
    2 ^ 53 * units b < (2 ^ 53 - 1) * units (b + 1) ∨
      2 ^ 53 * units (b + 1) < (2 ^ 53 - 1) * units (b + 1 + 1) := by
  obtain ⟨q, s, hbits, hq, -, hb, hnext⟩ := exists_block b
  obtain ⟨q', s', hbits', hq', -, hb', hnext'⟩ := exists_block (b + 1)
  -- inside a block the significand is not the last one, so the bound is strict
  have hinner : ∀ {q s : Nat}, q + 1 < 2 ^ 53 →
      2 ^ 53 * (q * 2 ^ s) < (2 ^ 53 - 1) * ((q + 1) * 2 ^ s) := by
    intro q s hq
    rw [← Nat.mul_assoc, ← Nat.mul_assoc]
    exact Nat.mul_lt_mul_of_pos_right (by omega) (Nat.two_pow_pos s)
  by_cases hlast : q + 1 < 2 ^ 53
  · rw [hb, hnext]
    exact .inl (hinner hlast)
  · -- the bits are the last of their block, so the next are the first of theirs
    rw [hb', hnext']
    exact .inr (hinner (by omega))

/-- **Neighbours that are not subnormal are close.** -/
theorem succ_units_le {b : Nat} (h : 2 ^ 52 ≤ b) :
    2 ^ 52 * units (b + 1) ≤ (2 ^ 52 + 1) * units b := by
  obtain ⟨q, s, -, -, hlow, hb, hnext⟩ := exists_block b
  have hq := hlow h
  -- the significand is large, so one more is little
  have hfactor : 2 ^ 52 * (q + 1) ≤ (2 ^ 52 + 1) * q := by omega
  rw [hb, hnext, ← Nat.mul_assoc, ← Nat.mul_assoc]
  exact Nat.mul_le_mul_right _ hfactor

/-- **A number of at most 53 bits**, shifted to the left, is the value of some bits. -/
theorem exists_units (s : Nat) {q : Nat} (hq : q ≤ 2 ^ 53) : ∃ b, units b = q * 2 ^ s := by
  -- by induction on the shift: a short significand takes a zero more, and a long one begins a block
  induction s generalizing q with
  | zero =>
    refine ⟨q, ?_⟩
    rw [Nat.pow_zero, Nat.mul_one]
    rcases Nat.lt_or_ge q (2 ^ 52) with hsmall | hlarge
    · exact units_of_lt hsmall
    · have hblock := units_block 0 hlarge hq
      rwa [Nat.zero_mul, Nat.add_zero, Nat.pow_zero, Nat.mul_one] at hblock
  | succ s ih =>
    rcases Nat.lt_or_ge q (2 ^ 52) with hsmall | hlarge
    · -- there is room for one more bit
      obtain ⟨b, hb⟩ := ih (q := 2 * q) (by omega)
      exact ⟨b, by rw [hb, Nat.pow_succ]; ring⟩
    · exact ⟨q + (s + 1) * 2 ^ 52, units_block (s + 1) hlarge hq⟩

/-! ### What rounds to some bits -/

/-- Twice the value that is half way from some bits to the next. -/
def halfway (b : Nat) : Nat := units b + units (b + 1)

/-- **Half-way points grow** as neighbours do, and a little more. -/
theorem halfway_lt_succ (b : Nat) : 2 ^ 53 * halfway b < (2 ^ 53 - 1) * halfway (b + 1) := by
  rw [halfway, halfway, Nat.mul_add, Nat.mul_add]
  -- one of the two distances is strictly within its bound
  rcases units_lt_succ_or b with h | h
  · exact Nat.add_lt_add_of_lt_of_le h (units_le_succ (b + 1))
  · exact Nat.add_lt_add_of_le_of_lt (units_le_succ b) h

/-- Greater bits have a greater half-way point. -/
theorem halfway_strictMono : StrictMono halfway := by
  refine strictMono_nat_of_lt_succ fun b => ?_
  have h := halfway_lt_succ b
  omega

/-- **A value rounds to some bits**: it is between the half-way points, and on neither of them if
the bits are odd. -/
structure Rounds (b : Nat) (x : ℚ) : Prop where
  low : ((units (b - 1) + units b : Nat) : ℚ) ≤ 2 * x
  high : 2 * x ≤ (halfway b : Nat)
  odd : b % 2 = 1 → ((units (b - 1) + units b : Nat) : ℚ) < 2 * x ∧ 2 * x < (halfway b : Nat)

namespace Rounds

variable {b c : Nat} {x y : ℚ}

/-- The half-way point before some bits is that behind the bits before them. -/
theorem low_succ (h : Rounds (b + 1) x) : (halfway b : ℚ) ≤ 2 * x := h.low

/-- A value that is nearer to some bits than their neighbours are rounds to them. -/
theorem of_lt (hlow : ((units (b - 1) + units b : Nat) : ℚ) < 2 * x)
    (hhigh : 2 * x < (halfway b : Nat)) : Rounds b x :=
  ⟨hlow.le, hhigh.le, fun _ => ⟨hlow, hhigh⟩⟩

/-- The value of some bits rounds to them. -/
theorem units_self (b : Nat) : Rounds b (units b) := by
  have hnext : ((units b : Nat) : ℚ) < (units (b + 1) : Nat) := by exact_mod_cast units_lt_succ b
  have hhigh : 2 * ((units b : Nat) : ℚ) < (halfway b : Nat) := by
    rw [halfway]
    push_cast
    linarith
  -- nothing is before zero, and it is even
  cases b with
  | zero => exact ⟨by simp, hhigh.le, fun h => absurd h (by decide)⟩
  | succ b =>
    refine of_lt ?_ hhigh
    have hbefore : ((units b : Nat) : ℚ) < (units (b + 1) : Nat) := by
      exact_mod_cast units_lt_succ b
    push_cast [Nat.add_sub_cancel]
    linarith

/-- What is beyond a half-way point rounds to greater bits. -/
theorem lt_bits (h : Rounds b x) (hx : (halfway c : ℚ) < 2 * x) : c < b := by
  have hlt : (halfway c : ℚ) < (halfway b : Nat) := lt_of_lt_of_le hx h.high
  exact halfway_strictMono.lt_iff_lt.mp (by exact_mod_cast hlt)

/-- What is in front of a half-way point rounds to no greater bits. -/
theorem bits_le (h : Rounds b x) (hx : 2 * x < (halfway c : Nat)) : b ≤ c := by
  cases b with
  | zero => exact Nat.zero_le c
  | succ b =>
    have hlt : (halfway b : ℚ) < (halfway c : Nat) := lt_of_le_of_lt h.low_succ hx
    exact halfway_strictMono.lt_iff_lt.mp (by exact_mod_cast hlt)

/-- **A greater value rounds to no smaller bits.** -/
theorem mono (hb : Rounds b x) (hc : Rounds c y) (h : x ≤ y) : b ≤ c := by
  by_contra hlt
  obtain ⟨b, rfl⟩ : ∃ k, b = k + 1 := ⟨b - 1, by omega⟩
  -- both values are on the half-way point between the two bits
  have hpoint : (halfway b : ℚ) ≤ (halfway c : Nat) := by linarith [hb.low_succ, hc.high]
  have hle : b ≤ c := halfway_strictMono.le_iff_le.mp (by exact_mod_cast hpoint)
  obtain rfl : b = c := by omega
  have hlow := hb.low_succ
  have hhigh := hc.high
  -- and one of the bits is odd
  rcases Nat.mod_two_eq_zero_or_one b with heven | hodd
  · have hstrict : (halfway b : ℚ) < 2 * x := (hb.odd (by omega)).1
    linarith
  · have hstrict := (hc.odd hodd).2
    linarith

/-- **A value rounds to no two bits.** -/
theorem unique (hb : Rounds b x) (hc : Rounds c x) : b = c :=
  le_antisymm (hb.mono hc le_rfl) (hc.mono hb le_rfl)

end Rounds

/-- A ratio rounds to some bits, in natural numbers. -/
theorem rounds_div_iff {b n den : Nat} (hden : 0 < den) :
    Rounds b (n / den) ↔
      (units (b - 1) + units b) * den ≤ 2 * n ∧ 2 * n ≤ halfway b * den ∧
        (b % 2 = 1 → (units (b - 1) + units b) * den < 2 * n ∧ 2 * n < halfway b * den) := by
  have hpos : (0 : ℚ) < den := by exact_mod_cast hden
  -- each of the four comparisons with a fraction, as one of natural numbers
  have hle : ∀ k : Nat, (k : ℚ) ≤ 2 * (n / den) ↔ k * den ≤ 2 * n := fun k => by
    rw [← mul_div_assoc, le_div_iff₀ hpos]
    norm_cast
  have hlt : ∀ k : Nat, (k : ℚ) < 2 * (n / den) ↔ k * den < 2 * n := fun k => by
    rw [← mul_div_assoc, lt_div_iff₀ hpos]
    norm_cast
  have hge : ∀ k : Nat, 2 * ((n : ℚ) / den) ≤ k ↔ 2 * n ≤ k * den := fun k => by
    rw [← mul_div_assoc, div_le_iff₀ hpos]
    norm_cast
  have hgt : ∀ k : Nat, 2 * ((n : ℚ) / den) < k ↔ 2 * n < k * den := fun k => by
    rw [← mul_div_assoc, div_lt_iff₀ hpos]
    norm_cast
  constructor
  · rintro ⟨low, high, odd⟩
    exact ⟨(hle _).mp low, (hge _).mp high, fun h => ⟨(hlt _).mp (odd h).1, (hgt _).mp (odd h).2⟩⟩
  · rintro ⟨low, high, odd⟩
    exact ⟨(hle _).mpr low, (hge _).mpr high,
      fun h => ⟨(hlt _).mpr (odd h).1, (hgt _).mpr (odd h).2⟩⟩

/-! ### The bits that are found -/

/-- **The rounded ratio is off by a half at most**, and by less if it is odd. -/
theorem roundHalfEven_spec (n : Nat) {d : Nat} (hd : 0 < d) :
    2 * (roundHalfEven n d * d) ≤ 2 * n + d ∧ 2 * n ≤ 2 * (roundHalfEven n d * d) + d ∧
      (roundHalfEven n d % 2 = 1 →
        2 * (roundHalfEven n d * d) < 2 * n + d ∧ 2 * n < 2 * (roundHalfEven n d * d) + d) := by
  have hn : n / d * d + n % d = n := Nat.div_add_mod' n d
  have hmod : n % d < d := Nat.mod_lt n hd
  have hnext : (n / d + 1) * d = n / d * d + d := Nat.succ_mul _ _
  unfold roundHalfEven
  dsimp only
  -- the rest is less than a half, or it is more, or it is a half
  split
  · omega
  · split
    · rw [hnext]
      omega
    · -- a half goes to the even one of the two
      rcases Nat.mod_two_eq_zero_or_one (n / d) with heven | hodd
      · rw [heven, Nat.add_zero]
        omega
      · rw [hodd, hnext]
        omega

/-- **The bits that do not fit**: what is left of the number without them has 53 bits, or it has
fewer and nothing is cut off. -/
theorem excessBits_spec (n : Nat) :
    n < 2 ^ 53 * 2 ^ excessBits n ∧ (excessBits n ≠ 0 → 2 ^ 52 * 2 ^ excessBits n ≤ n) := by
  unfold excessBits
  rw [Nat.pow_eq]
  split
  · next hsmall => exact ⟨by simpa using hsmall, fun h => absurd rfl h⟩
  · next hlarge =>
    have hne : n ≠ 0 := by
      rintro rfl
      exact hlarge (by decide)
    -- the length of the number tells how many are too many
    have hlog : 53 ≤ n.log2 := (Nat.le_log2 hne).mpr (Nat.not_lt.mp hlarge)
    rw [← Nat.pow_add, ← Nat.pow_add, show 53 + (n.log2 - 52) = n.log2 + 1 by omega,
      show 52 + (n.log2 - 52) = n.log2 by omega]
    exact ⟨Nat.lt_log2_self, fun _ => Nat.log2_self_le hne⟩

/-- How many units make one. -/
@[irreducible] def unitsPerOne : Nat := Nat.pow 2 1074

/-- The units of one are a power of two, which the kernel is not to compute again. -/
theorem unitsPerOne_eq : unitsPerOne = 2 ^ 1074 := by
  decide +kernel

theorem unitsPerOne_pos : 0 < unitsPerOne := by
  decide +kernel

section Rounded

variable {q s : Nat}

/-! A rounded part of 53 bits at most, and of no fewer where anything was cut off. -/

/-- The value of such bits is the part that was rounded. -/
theorem units_rounded (hhigh : q ≤ 2 ^ 53) (hlow : s ≠ 0 → 2 ^ 52 ≤ q) :
    units (q + s * 2 ^ 52) = q * 2 ^ s := by
  rcases Nat.lt_or_ge q (2 ^ 52) with hsmall | hlarge
  · -- a part that is short was not cut, so it is its own value
    obtain rfl : s = 0 := by
      by_contra hs
      exact absurd (hlow hs) (Nat.not_le.mpr hsmall)
    rw [Nat.zero_mul, Nat.add_zero, Nat.pow_zero, Nat.mul_one, units_of_lt hsmall]
  · exact units_block s hlarge hhigh

/-- The next number is as far away as the block has it, or twice as far behind its end. -/
theorem le_units_rounded_succ (hhigh : q ≤ 2 ^ 53) (hlow : s ≠ 0 → 2 ^ 52 ≤ q) :
    (q + 1) * 2 ^ s ≤ units (q + s * 2 ^ 52 + 1) := by
  obtain ⟨q', s', hbits, hq', -, hvalue, hnext⟩ := exists_block (q + s * 2 ^ 52)
  rw [units_rounded hhigh hlow] at hvalue
  -- the bits may be the first of the next block, whose steps are longer
  have hs : s ≤ s' := by
    by_contra hlt
    have hs0 : s ≠ 0 := by omega
    have := hlow hs0
    omega
  rw [hnext, Nat.succ_mul, Nat.succ_mul, ← hvalue]
  exact Nat.add_le_add_left (Nat.pow_le_pow_right (by decide) hs) _

/-- The number before is as far away, but where the block begins. -/
theorem units_rounded_pred (hhigh : q ≤ 2 ^ 53) (hlow : s ≠ 0 → 2 ^ 52 < q) (hq : 0 < q) :
    units (q + s * 2 ^ 52 - 1) = (q - 1) * 2 ^ s := by
  have hbits : q + s * 2 ^ 52 - 1 = (q - 1) + s * 2 ^ 52 := by omega
  rw [hbits]
  exact units_rounded (by omega) fun hs => by
    have := hlow hs
    omega

/-- Rounding keeps within the bounds of the part that is rounded. -/
theorem bounds_of_rounded {n D : Nat} (hbelow : 2 * (q * D) ≤ 2 * n + D)
    (habove : 2 * n ≤ 2 * (q * D) + D) (hfits : n < 2 ^ 53 * D) (hfills : s ≠ 0 → 2 ^ 52 * D ≤ n) :
    q ≤ 2 ^ 53 ∧ (s ≠ 0 → 2 ^ 52 ≤ q) := by
  constructor
  · -- one step too many is more than rounding adds
    by_contra hlt
    have hmul : (2 ^ 53 + 1) * D ≤ q * D := Nat.mul_le_mul_right D (by omega)
    omega
  · -- and one step too few is more than it takes away
    intro hs
    by_contra hlt
    have hmul : (q + 1) * D ≤ 2 ^ 52 * D := Nat.mul_le_mul_right D (by omega)
    have := hfills hs
    rw [Nat.succ_mul] at hmul
    omega

/-- The half-way point behind a rounded part is half a step away, or more. -/
theorem le_halfway_rounded (hhigh : q ≤ 2 ^ 53) (hlow : s ≠ 0 → 2 ^ 52 ≤ q) :
    (2 * q + 1) * 2 ^ s ≤ halfway (q + s * 2 ^ 52) :=
  calc (2 * q + 1) * 2 ^ s = q * 2 ^ s + (q + 1) * 2 ^ s := by ring
    _ ≤ halfway (q + s * 2 ^ 52) :=
      Nat.add_le_add (units_rounded hhigh hlow).ge (le_units_rounded_succ hhigh hlow)

/-- **A ratio rounds to the bits of its rounded part**: the part is `q` steps, and each of them
takes `2 ^ s` units. -/
theorem rounds_rounded {n den : Nat} (hden : 0 < den)
    (hbelow : 2 * (q * (den * 2 ^ s)) ≤ 2 * n + den * 2 ^ s)
    (habove : 2 * n ≤ 2 * (q * (den * 2 ^ s)) + den * 2 ^ s)
    (hodd : q % 2 = 1 → 2 * (q * (den * 2 ^ s)) < 2 * n + den * 2 ^ s ∧
      2 * n < 2 * (q * (den * 2 ^ s)) + den * 2 ^ s)
    (hhigh : q ≤ 2 ^ 53) (hlow : s ≠ 0 → 2 ^ 52 ≤ q) (hfills : s ≠ 0 → 2 ^ 52 * (den * 2 ^ s) ≤ n) :
    Rounds (q + s * 2 ^ 52) (n / den) := by
  have hscale : ∀ k, k * 2 ^ s * den = k * (den * 2 ^ s) := fun k => by ring
  have hvalue := units_rounded hhigh hlow
  have hnext : (2 * q + 1) * (den * 2 ^ s) ≤ halfway (q + s * 2 ^ 52) * den := by
    rw [← hscale]
    exact Nat.mul_le_mul_right den (le_halfway_rounded hhigh hlow)
  have hexpand : (2 * q + 1) * (den * 2 ^ s) = 2 * (q * (den * 2 ^ s)) + den * 2 ^ s := by ring
  have hpos : 0 < den * 2 ^ s := Nat.mul_pos hden (Nat.two_pow_pos s)
  -- the bits are even exactly if the rounded part is
  have hparity : (q + s * 2 ^ 52) % 2 = q % 2 := by omega
  refine (rounds_div_iff hden).mpr ?_
  rw [hparity]
  by_cases hfirst : q = 0 ∨ s ≠ 0 ∧ q = 2 ^ 52
  · -- at the beginning of a block nothing was rounded up
    have hcut : q * (den * 2 ^ s) ≤ n := by
      rcases hfirst with rfl | ⟨hs, rfl⟩
      · omega
      · exact hfills hs
    have hpred : units (q + s * 2 ^ 52 - 1) ≤ q * 2 ^ s := by
      rw [← hvalue]
      exact units_strictMono.monotone (Nat.sub_le _ 1)
    have hbefore : (units (q + s * 2 ^ 52 - 1) + units (q + s * 2 ^ 52)) * den ≤
        2 * (q * (den * 2 ^ s)) := by
      calc (units (q + s * 2 ^ 52 - 1) + units (q + s * 2 ^ 52)) * den
          ≤ (q * 2 ^ s + q * 2 ^ s) * den :=
            Nat.mul_le_mul_right den (Nat.add_le_add hpred hvalue.le)
        _ = 2 * (q * (den * 2 ^ s)) := by rw [Nat.add_mul, hscale]; ring
    have heven : q % 2 ≠ 1 := by omega
    exact ⟨by omega, by omega, fun h => absurd h heven⟩
  · -- inside a block the numbers on both sides are one step away
    have hpred : units (q + s * 2 ^ 52 - 1) = (q - 1) * 2 ^ s :=
      units_rounded_pred hhigh (fun hs => by have := hlow hs; omega) (by omega)
    have hbefore : (units (q + s * 2 ^ 52 - 1) + units (q + s * 2 ^ 52)) * den + den * 2 ^ s =
        2 * (q * (den * 2 ^ s)) := by
      obtain ⟨r, rfl⟩ : ∃ r, q = r + 1 := ⟨q - 1, by omega⟩
      rw [hpred, hvalue, Nat.add_sub_cancel, Nat.add_mul, hscale, hscale]
      ring
    generalize den * 2 ^ s = D at *
    omega

end Rounded

/-- **The bits found for a ratio are those that it rounds to.** -/
theorem rounds_nearestBits (num : Nat) {den : Nat} (hden : 0 < den) :
    Rounds (nearestBits num den) ((num * unitsPerOne : Nat) / den) := by
  have hbits : nearestBits num den =
      roundHalfEven (num * unitsPerOne) (den * 2 ^ excessBits (num * unitsPerOne / den)) +
        excessBits (num * unitsPerOne / den) * 2 ^ 52 := by
    unfold nearestBits unitsPerOne
    rfl
  rw [hbits]
  -- the units are a number of a thousand bits, so they are not to be unfolded
  generalize num * unitsPerOne = n
  obtain ⟨hfits, hfills⟩ := excessBits_spec (n / den)
  generalize excessBits (n / den) = s at hfits hfills ⊢
  have hd : 0 < den * 2 ^ s := Nat.mul_pos hden (Nat.two_pow_pos s)
  obtain ⟨hbelow, habove, hodd⟩ := roundHalfEven_spec n hd
  -- the part that is rounded fits in 53 bits, and fills them if anything is cut off
  have hfits : n < 2 ^ 53 * (den * 2 ^ s) :=
    calc n < 2 ^ 53 * 2 ^ s * den := (Nat.div_lt_iff_lt_mul hden).mp hfits
      _ = 2 ^ 53 * (den * 2 ^ s) := by ring
  have hfills : s ≠ 0 → 2 ^ 52 * (den * 2 ^ s) ≤ n := fun hs =>
    calc 2 ^ 52 * (den * 2 ^ s) = 2 ^ 52 * 2 ^ s * den := by ring
      _ ≤ n := (Nat.le_div_iff_mul_le hden).mp (hfills hs)
  obtain ⟨hhigh, hlow⟩ := bounds_of_rounded hbelow habove hfits hfills
  exact rounds_rounded hden hbelow habove hodd hhigh hlow hfills

/-- A natural number of at most 53 bits, zeros at the end not counted, is a value. -/
theorem exists_units_natural (s : Nat) {q : Nat} (hq : q ≤ 2 ^ 53) :
    ∃ b, units b = q * 2 ^ s * unitsPerOne := by
  -- the shift is kept abstract, as its power is not to be computed
  obtain ⟨shift, hshift⟩ : ∃ shift, unitsPerOne = 2 ^ shift := ⟨1074, unitsPerOne_eq⟩
  obtain ⟨b, hb⟩ := exists_units (s + shift) hq
  exact ⟨b, by rw [hb, hshift, Nat.pow_add]; ring⟩

/-! ### Values that roundings take apart -/

/-- The least ratio of a number to the one before it. -/
def spread : ℚ := 2 ^ 53 / (2 ^ 53 - 1)

theorem one_lt_spread : 1 < spread := by
  norm_num [spread]

/-- **Values at most `k` roundings apart**: neither exceeds the other by more than `k` numbers in a
row do. -/
def Close (k : Nat) (x y : ℚ) : Prop := x ≤ y * spread ^ k ∧ y ≤ x * spread ^ k

namespace Close

variable {j k : Nat} {x y z x' y' : ℚ}

/-- A value is no rounding away from itself. -/
theorem refl (x : ℚ) : Close 0 x x := by simp [Close]

/-- Neither of two close values is the first. -/
theorem symm (h : Close k x y) : Close k y x := ⟨h.2, h.1⟩

/-- No roundings apart is the same. -/
theorem eq_of_zero (h : Close 0 x y) : x = y := by
  have hle := h.1
  have hge := h.2
  rw [pow_zero, mul_one] at hle hge
  exact le_antisymm hle hge

/-- **Roundings in a row add up.** -/
theorem trans (hxy : Close j x y) (hyz : Close k y z) : Close (j + k) x z := by
  have hpos : ∀ n, (0 : ℚ) ≤ spread ^ n := fun n => (pow_pos (one_pos.trans one_lt_spread) n).le
  constructor
  · calc x ≤ y * spread ^ j := hxy.1
      _ ≤ z * spread ^ k * spread ^ j := mul_le_mul_of_nonneg_right hyz.1 (hpos j)
      _ = z * spread ^ (j + k) := by ring
  · calc z ≤ y * spread ^ k := hyz.2
      _ ≤ x * spread ^ j * spread ^ k := mul_le_mul_of_nonneg_right hxy.2 (hpos k)
      _ = x * spread ^ (j + k) := by ring

/-- Values that are not negative may be taken to be further apart. -/
theorem mono (h : Close j x y) (hjk : j ≤ k) (hx : 0 ≤ x) (hy : 0 ≤ y) : Close k x y := by
  have hpow : spread ^ j ≤ spread ^ k := pow_le_pow_right₀ one_lt_spread.le hjk
  exact ⟨h.1.trans (mul_le_mul_of_nonneg_left hpow hy),
    h.2.trans (mul_le_mul_of_nonneg_left hpow hx)⟩

/-- **Roundings of factors add up.** -/
theorem mul (h : Close j x y) (h' : Close k x' y') (hx : 0 ≤ x) (hy : 0 ≤ y) (hx' : 0 ≤ x')
    (hy' : 0 ≤ y') : Close (j + k) (x * x') (y * y') := by
  have hpos : ∀ n, (0 : ℚ) ≤ spread ^ n := fun n => (pow_pos (one_pos.trans one_lt_spread) n).le
  constructor
  · calc x * x' ≤ (y * spread ^ j) * (y' * spread ^ k) :=
        mul_le_mul h.1 h'.1 hx' (mul_nonneg hy (hpos j))
      _ = y * y' * spread ^ (j + k) := by ring
  · calc y * y' ≤ (x * spread ^ j) * (x' * spread ^ k) :=
        mul_le_mul h.2 h'.2 hy' (mul_nonneg hx (hpos j))
      _ = x * x' * spread ^ (j + k) := by ring

/-- The inverse of a value is as far off as the value. -/
theorem inv (h : Close k x y) (hx : 0 < x) (hy : 0 < y) : Close k x⁻¹ y⁻¹ := by
  have hpos : (0 : ℚ) < spread ^ k := pow_pos (one_pos.trans one_lt_spread) k
  constructor
  · calc x⁻¹ = y⁻¹ * (y * x⁻¹) := by field_simp
      _ ≤ y⁻¹ * (x * spread ^ k * x⁻¹) := by gcongr; exact h.2
      _ = y⁻¹ * spread ^ k := by field_simp
  · calc y⁻¹ = x⁻¹ * (x * y⁻¹) := by field_simp
      _ ≤ x⁻¹ * (y * spread ^ k * y⁻¹) := by gcongr; exact h.1
      _ = x⁻¹ * spread ^ k := by field_simp

/-- **So do those of a dividend and its divisor.** -/
theorem div (h : Close j x y) (h' : Close k x' y') (hx : 0 ≤ x) (hy : 0 ≤ y) (hx' : 0 < x')
    (hy' : 0 < y') : Close (j + k) (x / x') (y / y') := by
  rw [div_eq_mul_inv, div_eq_mul_inv]
  exact h.mul (h'.inv hx' hy') hx hy (inv_nonneg.mpr hx'.le) (inv_nonneg.mpr hy'.le)

/-- A product of values that are counted in parts of one. -/
theorem mul_div_one {one : ℚ} (h : Close j x (y * one)) (h' : Close k x' (y' * one)) (hx : 0 ≤ x)
    (hy : 0 ≤ y) (hx' : 0 ≤ x') (hy' : 0 ≤ y') (hone : 0 < one) :
    Close (j + k) (x * x' / one) (y * y' * one) := by
  have hvalue : y * y' * one = y * one * (y' * one) / one := by field_simp
  rw [hvalue]
  have hmul : Close (j + k) (x * x') (y * one * (y' * one)) :=
    h.mul h' hx (mul_nonneg hy hone.le) hx' (mul_nonneg hy' hone.le)
  have hdiv : Close (j + k + 0) (x * x' / one) (y * one * (y' * one) / one) :=
    hmul.div (.refl one) (mul_nonneg hx hx')
      (mul_nonneg (mul_nonneg hy hone.le) (mul_nonneg hy' hone.le)) hone hone
  rwa [Nat.add_zero] at hdiv

/-- A quotient of such values. -/
theorem mul_one_div {one : ℚ} (h : Close j x (y * one)) (h' : Close k x' (y' * one)) (hx : 0 ≤ x)
    (hy : 0 ≤ y) (hx' : 0 < x') (hy' : 0 < y') (hone : 0 < one) :
    Close (j + k) (x * one / x') (y / y' * one) := by
  have hvalue : y / y' * one = y * one * one / (y' * one) := by field_simp
  rw [hvalue]
  have hmul : Close (j + 0) (x * one) (y * one * one) :=
    h.mul (.refl one) hx (mul_nonneg hy hone.le) hone.le hone.le
  rw [Nat.add_zero] at hmul
  exact hmul.div h' (mul_nonneg hx hone.le) (mul_nonneg (mul_nonneg hy hone.le) hone.le) hx'
    (mul_pos hy' hone)

end Close

/-- **A number is close to what rounds to it**, if it is no subnormal one and not the least of the
others. -/
theorem Rounds.close {b : Nat} {x : ℚ} (h : Rounds b x) (hb : 2 ^ 52 < b) :
    Close 1 (units b) x := by
  obtain ⟨b, rfl⟩ : ∃ k, b = k + 1 := ⟨b - 1, by omega⟩
  have hbefore : (2 ^ 52 * units (b + 1) : ℚ) ≤ (2 ^ 52 + 1) * units b := by
    exact_mod_cast succ_units_le (b := b) (by omega)
  have hafter : (2 ^ 52 * units (b + 1 + 1) : ℚ) ≤ (2 ^ 52 + 1) * units (b + 1) := by
    exact_mod_cast succ_units_le (b := b + 1) (by omega)
  have hlow := h.low
  have hhigh := h.high
  rw [halfway] at hhigh
  push_cast [Nat.add_sub_cancel] at hlow hhigh
  have hnonneg : (0 : ℚ) ≤ units b := by positivity
  -- the value is at most half a distance away on each side, and both distances are small
  constructor
  · rw [pow_one, spread, ← mul_div_assoc, le_div_iff₀ (by norm_num)]
    linarith
  · rw [pow_one, spread, ← mul_div_assoc, le_div_iff₀ (by norm_num)]
    linarith

/-! ### Places among the numbers -/

/-- The least ratio of two numbers is less than that of half-way points. -/
theorem halfway_mul_spread (b : Nat) : (halfway b : ℚ) * spread < halfway (b + 1) := by
  have h : ((2 : ℚ) ^ 53) * halfway b < (2 ^ 53 - 1) * halfway (b + 1) := by
    have hnat := halfway_lt_succ b
    have hcast : ((2 ^ 53 * halfway b : Nat) : ℚ) < ((2 ^ 53 - 1) * halfway (b + 1) : Nat) := by
      exact_mod_cast hnat
    push_cast at hcast
    linarith
  rw [spread, ← mul_div_assoc, div_lt_iff₀ (by norm_num)]
  linarith

/-- The least ratio to a power is less than that of half-way points as many places apart. -/
theorem halfway_mul_spread_pow (b k : Nat) :
    (halfway b : ℚ) * spread ^ (k + 1) < halfway (b + (k + 1)) := by
  induction k with
  | zero =>
    rw [zero_add, pow_one]
    exact halfway_mul_spread b
  | succ k ih =>
    have hpos : 0 < spread := one_pos.trans one_lt_spread
    calc (halfway b : ℚ) * spread ^ (k + 1 + 1) = halfway b * spread ^ (k + 1) * spread := by ring
      _ < halfway (b + (k + 1)) * spread := mul_lt_mul_of_pos_right ih hpos
      _ < halfway (b + (k + 1 + 1)) := halfway_mul_spread (b + (k + 1))

/-- **Values that `k` roundings take apart round to bits that are `k` places apart at most.** -/
theorem Rounds.le_add {b c k : Nat} {x y : ℚ} (hb : Rounds b x) (hc : Rounds c y)
    (h : Close k x y) : b ≤ c + k := by
  cases k with
  | zero =>
    obtain rfl := h.eq_of_zero
    exact (hb.unique hc).le
  | succ k =>
    have hpos : 0 < spread ^ (k + 1) := pow_pos (one_pos.trans one_lt_spread) _
    -- the value does not reach the half-way point that is `k` places on
    refine hb.bits_le ?_
    calc 2 * x ≤ 2 * y * spread ^ (k + 1) := by linarith [h.1]
      _ ≤ halfway c * spread ^ (k + 1) := mul_le_mul_of_nonneg_right hc.high hpos.le
      _ < halfway (c + (k + 1)) := halfway_mul_spread_pow c k

end TokenForge
