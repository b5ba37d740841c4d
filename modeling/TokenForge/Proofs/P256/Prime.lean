import Mathlib.FieldTheory.Finite.Basic
import Mathlib.GroupTheory.OrderOfElement
import Mathlib.Tactic.NormNum.Prime
import TokenForge.Proofs.P256.Power

/-!
# The two numbers of P-256 are prime

A number is prime if the order of some residue is divisible by enough of the number less one
(`prime_of_passes`). The powers that are asked for are computed by `power`, and the primes that are
asked for are tested in the same way, down to some that are small.

* `prime_prime` — the size of the field of coordinates is prime;
* `order_prime` — the number of points is prime.
-/

namespace TokenForge.P256

variable {n : Nat}

/-- **What the test asks** of a residue and some primes: the primes multiply to a divisor of `n - 1`
that is greater than the root of `n`, the power `x ^ (n - 1)` is one, and for each prime `q` the power
`x ^ ((n - 1) / q)` is not one modulo any divisor of `n`. -/
def Passes (x : Fin n) (qs : List Nat) : Prop :=
  n < 2 ^ 256 ∧ qs.prod ∣ n - 1 ∧ n < qs.prod ^ 2 ∧ (power x (n - 1)).val = 1 ∧
    ∀ q ∈ qs, Nat.gcd ((power x ((n - 1) / q)).val + (n - 1)) n = 1

instance (x : Fin n) (qs : List Nat) : Decidable (Passes x qs) :=
  inferInstanceAs (Decidable (_ ∧ _))

/-- **A number is prime** if one of its residues passes the test with some primes. -/
theorem prime_of_passes {x : Fin n} (qs : List Nat) (hqs : ∀ q ∈ qs, q.Prime)
    (hpasses : Passes x qs) : n.Prime := by
  obtain ⟨hsize, hdvd, hbig, hone, hpart⟩ := hpasses
  have htwo : 2 ≤ n := by
    have hlt := (power x (n - 1)).isLt
    omega
  by_contra hnot
  -- the least prime that divides `n` is no greater than its root
  have hr : n.minFac.Prime := Nat.minFac_prime (by omega)
  have hrdvd : n.minFac ∣ n := n.minFac_dvd
  have hroot : n.minFac ^ 2 ≤ n := Nat.minFac_sq_le_self (by omega) hnot
  generalize n.minFac = r at hr hrdvd hroot
  have : Fact r.Prime := ⟨hr⟩
  -- modulo that prime, the power to the product of the others still has the product for its order
  have hpower : ∀ e < 2 ^ 256, ((power x e).val : ZMod r) = (x.val : ZMod r) ^ e := by
    intro e he
    have hcast := congrArg (ZMod.castHom hrdvd (ZMod r)) (toZMod_power x he)
    rwa [toZMod, toZMod, map_natCast, map_pow, map_natCast] at hcast
  obtain ⟨k, hk⟩ := hdvd
  have hpos : 0 < qs.prod := Nat.pos_of_ne_zero fun h => by simp [h] at hbig
  have hfull : ((x.val : ZMod r) ^ k) ^ qs.prod = 1 := by
    rw [← pow_mul, Nat.mul_comm, ← hk, ← hpower _ (by omega), hone, Nat.cast_one]
  have horder : orderOf ((x.val : ZMod r) ^ k) = qs.prod := by
    refine orderOf_eq_of_pow_and_pow_div_prime hpos hfull fun q hq hqdvd hpow => ?_
    obtain ⟨p, hp, hqp⟩ := (Prime.dvd_prod_iff hq.prime).mp hqdvd
    obtain rfl : q = p := (Nat.prime_dvd_prime_iff_eq hq (hqs p hp)).mp hqp
    have hexponent : k * (qs.prod / q) = (n - 1) / q := by
      rw [hk, Nat.mul_comm qs.prod k, Nat.mul_div_assoc k hqdvd]
    rw [← pow_mul, hexponent, ← hpower _ (by have := Nat.div_le_self (n - 1) q; omega)] at hpow
    -- then `r` divides both the power less one and `n`
    have hzero : (((power x ((n - 1) / q)).val + (n - 1) : Nat) : ZMod r) = 0 := by
      have hsucc : (1 : ZMod r) + ((n - 1 : Nat) : ZMod r) = ((1 + (n - 1) : Nat) : ZMod r) := by
        rw [Nat.cast_add, Nat.cast_one]
      rw [Nat.cast_add, hpow, hsucc, Nat.add_sub_cancel' (by omega)]
      exact (ZMod.natCast_eq_zero_iff n r).mpr hrdvd
    have hgcd := Nat.dvd_gcd ((ZMod.natCast_eq_zero_iff _ r).mp hzero) hrdvd
    rw [hpart q hp] at hgcd
    exact hr.one_lt.ne' (Nat.dvd_one.mp hgcd)
  -- so the product divides `r - 1`, and is too great for that
  have hne : (x.val : ZMod r) ^ k ≠ 0 := fun h => by
    rw [h, zero_pow hpos.ne'] at hfull
    exact zero_ne_one hfull
  have hle : qs.prod ≤ r - 1 := by
    have hdvd := orderOf_dvd_of_pow_eq_one (ZMod.pow_card_sub_one_eq_one hne)
    rw [horder] at hdvd
    have htwo := hr.two_le
    exact Nat.le_of_dvd (by omega) hdvd
  have hlt : qs.prod ^ 2 ≤ r ^ 2 := Nat.pow_le_pow_left (by omega) 2
  omega

/-! ### The size of the field -/

theorem prime_46076956964474543 : Nat.Prime 46076956964474543 := by
  refine @prime_of_passes _ 2 [78283, 704251] ?_ (by decide +kernel)
  norm_num

theorem prime_34282281433 : Nat.Prime 34282281433 := by
  have hfactor : Nat.Prime 204061199 := by
    refine @prime_of_passes _ 2 [107, 3769] ?_ (by decide +kernel)
    norm_num
  refine @prime_of_passes _ 2 [204061199] ?_ (by decide +kernel)
  simpa using hfactor

/-- **The size of the field is prime.** -/
theorem prime_prime : prime.Prime := by
  have hsecond : Nat.Prime 774023187263532362759620327192479577272145303 := by
    refine @prime_of_passes _ 2 [34282281433, 46076956964474543] ?_ (by decide +kernel)
    simpa using ⟨prime_34282281433, prime_46076956964474543⟩
  have hfirst : Nat.Prime 835945042244614951780389953367877943453916927241 := by
    refine @prime_of_passes _ 2 [774023187263532362759620327192479577272145303] ?_
      (by decide +kernel)
    simpa using hsecond
  refine @prime_of_passes _ 2 [835945042244614951780389953367877943453916927241] ?_
    (by decide +kernel)
  simpa using hfirst

/-! ### The number of points -/

theorem prime_1002328039319 : Nat.Prime 1002328039319 := by
  refine @prime_of_passes _ 2 [3969899] ?_ (by decide +kernel)
  norm_num

theorem prime_2624747550333869278416773953 : Nat.Prime 2624747550333869278416773953 := by
  have hthird : Nat.Prime 191039911 := by
    refine @prime_of_passes _ 2 [155317] ?_ (by decide +kernel)
    norm_num
  have hsecond : Nat.Prime 208150935158385979 := by
    refine @prime_of_passes _ 2 [3023, 191039911] ?_ (by decide +kernel)
    simpa using ⟨by norm_num, hthird⟩
  refine @prime_of_passes _ 2 [208150935158385979] ?_ (by decide +kernel)
  simpa using hsecond

/-- **The number of points is prime.** -/
theorem order_prime : order.Prime := by
  refine @prime_of_passes _ 2 [1002328039319, 2624747550333869278416773953] ?_ (by decide +kernel)
  simpa using ⟨prime_1002328039319, prime_2624747550333869278416773953⟩

instance : Fact prime.Prime := ⟨prime_prime⟩

instance : Fact order.Prime := ⟨order_prime⟩

end TokenForge.P256
