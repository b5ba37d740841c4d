import Mathlib.Data.List.Range
import Mathlib.Data.Nat.Bitwise
import Mathlib.Tactic.Ring
import TokenForge.Number.Bytes

/-!
# Numbers and bytes as bits

Bits are listed with the highest first, as bytes are. What is computed by going through the bits of a
number is followed by the number that the bits so far are (`Bits.foldl_ofNat`), and a list cut into
pieces is the same list of pieces in bits as in bytes (`Bits.pieces_ofBytes`).

* `Bits.ofNat`, `Bits.toNat` — the low bits of a number, and the number of some bits;
* `Bits.ofBytes`, `Bits.toBytes` — the bits of some bytes, and the bytes of some bits;
* `Bits.pieces` — a list cut into pieces of one size;
* `ofBytes_toBytes` — a number is read back from its bytes.
-/

namespace TokenForge

namespace Bits

/-- The low `size` bits of a number. -/
def ofNat (size n : Nat) : List Bool := (List.range size).reverse.map n.testBit

/-- **The number that some bits are.** -/
def toNat (bs : List Bool) : Nat := bs.foldl (fun n bit => 2 * n + bit.toNat) 0

/-- **The bits of some bytes**, one byte after the other. -/
def ofBytes (bytes : Bytes) : List Bool := bytes.flatMap fun b => ofNat 8 b.toNat

/-- **The pieces of a list**, each of the same size. What is left over at the end is no piece. -/
def pieces {α : Type} (size : Nat) (xs : List α) : List (List α) :=
  (List.range (xs.length / size)).map fun i => (xs.drop (size * i)).take size

/-- The bytes that some bits are, eight at a time. -/
def toBytes (bs : List Bool) : Bytes := (pieces 8 bs).map fun piece => UInt8.ofNat (toNat piece)

variable {α β : Type} {size n : Nat} {xs ys : List α} {bytes : Bytes}

/-! ### Bits of numbers -/

@[simp] theorem length_ofNat (size n : Nat) : (ofNat size n).length = size := by
  simp [ofNat]

/-- The bits of a number are those of its half, and the lowest one. -/
theorem ofNat_succ (size n : Nat) : ofNat (size + 1) n = ofNat size (n / 2) ++ [n.testBit 0] := by
  have hshift : n.testBit ∘ Nat.succ = (n / 2).testBit := funext fun i => Nat.testBit_succ n i
  simp only [ofNat, List.range_succ_eq_map, List.reverse_cons, List.map_append, ← List.map_reverse,
    List.map_map, hshift, List.map_cons, List.map_nil]

/-- The bits of a number are those of its upper part and those of its lower part. -/
theorem ofNat_add (size k n : Nat) :
    ofNat (size + k) n = ofNat size (n / 2 ^ k) ++ ofNat k n := by
  induction k generalizing n with
  | zero => simp [ofNat]
  | succ k ih =>
    have hhalf : n / 2 / 2 ^ k = n / 2 ^ (k + 1) := by
      rw [Nat.div_div_eq_div_mul, Nat.pow_succ']
    rw [← Nat.add_assoc, ofNat_succ, ih, hhalf, List.append_assoc, ← ofNat_succ]

/-- Only the low bits of a number count. -/
theorem ofNat_mod (size n : Nat) : ofNat size (n % 2 ^ size) = ofNat size n := by
  refine List.map_congr_left fun i hi => ?_
  have hlow : i < size := by simpa using hi
  simp [Nat.testBit_mod_two_pow, hlow]

/-- A number is twice its half and its lowest bit. -/
theorem two_mul_half_add (n : Nat) : 2 * (n / 2) + (n.testBit 0).toNat = n := by
  rcases Nat.mod_two_eq_zero_or_one n with h | h <;> simp [Nat.testBit_zero, h] <;> omega

/-- **Going through the bits of a number.** What holds of zero at the start, and goes with a bit from
a number to twice the number and the bit, holds at the end of the number. -/
theorem foldl_ofNat {step : β → Bool → β} {rel : Nat → β → Prop} {start : β}
    (hstart : rel 0 start)
    (hstep : ∀ m acc bit, rel m acc → rel (2 * m + bit.toNat) (step acc bit)) (size n : Nat) :
    rel (n % 2 ^ size) ((ofNat size n).foldl step start) := by
  -- the lowest bit is read last, so the bits before it are those of the half
  induction size generalizing n with
  | zero => simpa [ofNat, Nat.mod_one] using hstart
  | succ size ih =>
    have hlow : 2 * (n / 2 % 2 ^ size) + (n.testBit 0).toNat = n % 2 ^ (size + 1) := by
      have hn := two_mul_half_add n
      have hbit : (n.testBit 0).toNat = n % 2 := by omega
      rw [Nat.pow_succ', Nat.mod_mul, hbit]
      omega
    rw [ofNat_succ, List.foldl_append, ← hlow]
    exact hstep _ _ _ (ih (n / 2))

/-- Bits in front of others count for more, by as many doublings. -/
theorem toNat_append (bs cs : List Bool) :
    toNat (bs ++ cs) = toNat bs * 2 ^ cs.length + toNat cs := by
  have hlast : ∀ (ds : List Bool) (bit : Bool), toNat (ds ++ [bit]) = 2 * toNat ds + bit.toNat :=
    fun ds bit => by simp only [toNat, List.foldl_append, List.foldl_cons, List.foldl_nil]
  induction cs using List.reverseRecOn with
  | nil => simp [toNat]
  | append_singleton cs bit ih =>
    rw [← List.append_assoc, hlast, hlast, ih, List.length_append, List.length_singleton,
      Nat.pow_succ]
    ring

/-- The low bits of a number are what is left of it. -/
theorem toNat_ofNat (size n : Nat) : toNat (ofNat size n) = n % 2 ^ size := by
  have hread := @foldl_ofNat _ (fun m bit => 2 * m + bit.toNat) (fun m acc => acc = m) 0 rfl
    (fun m acc bit h => by rw [h]) size n
  exact hread

/-! ### Bits of bytes -/

theorem ofBytes_append (bs cs : Bytes) : ofBytes (bs ++ cs) = ofBytes bs ++ ofBytes cs :=
  List.flatMap_append

theorem ofBytes_cons (b : UInt8) (bs : Bytes) :
    ofBytes (b :: bs) = ofNat 8 b.toNat ++ ofBytes bs := List.flatMap_cons

@[simp] theorem length_ofBytes (bytes : Bytes) : (ofBytes bytes).length = 8 * bytes.length := by
  induction bytes with
  | nil => rfl
  | cons b bs ih =>
    rw [ofBytes_cons, List.length_append, length_ofNat, ih, List.length_cons]
    ring

/-- Leaving out bytes leaves out their bits. -/
theorem drop_ofBytes (k : Nat) (bytes : Bytes) :
    (ofBytes bytes).drop (8 * k) = ofBytes (bytes.drop k) := by
  induction k generalizing bytes with
  | zero => rfl
  | succ k ih =>
    cases bytes with
    | nil => rfl
    | cons b bs =>
      rw [ofBytes_cons, Nat.mul_succ, Nat.add_comm, ← List.drop_drop,
        List.drop_left' (length_ofNat 8 _), ih, List.drop_succ_cons]

/-- Keeping bytes keeps their bits. -/
theorem take_ofBytes (k : Nat) (bytes : Bytes) :
    (ofBytes bytes).take (8 * k) = ofBytes (bytes.take k) := by
  -- the bits in front are those that dropping leaves over
  have hsplit := congrArg ofBytes (List.take_append_drop k bytes)
  have hbits := List.take_append_drop (8 * k) (ofBytes bytes)
  rw [ofBytes_append, ← drop_ofBytes] at hsplit
  exact List.append_cancel_right (hbits.trans hsplit.symm)

/-- The bits of zeros. -/
theorem ofBytes_replicate_zero (k : Nat) :
    ofBytes (List.replicate k 0) = List.replicate (8 * k) false := by
  induction k with
  | zero => rfl
  | succ k ih =>
    rw [List.replicate_succ, ofBytes_cons, ih, Nat.mul_succ, Nat.add_comm,
      List.replicate_add]
    rfl

/-- **The bits of a number's bytes are the bits of the number.** -/
theorem ofBytes_toBytes (size n : Nat) :
    ofBytes (TokenForge.toBytes size n) = ofNat (8 * size) n := by
  have hbyte : ∀ m : Nat, ofNat 8 (UInt8.ofNat (m % 256)).toNat = ofNat 8 m := fun m => by
    rw [UInt8.toNat_ofNat', Nat.mod_mod]
    exact ofNat_mod 8 m
  induction size with
  | zero => rfl
  | succ size ih =>
    -- the highest byte comes first, and the bytes of the rest behind it
    have hfirst : TokenForge.toBytes (size + 1) n =
        UInt8.ofNat (n / 256 ^ size % 256) :: TokenForge.toBytes size n := by
      simp only [TokenForge.toBytes, List.range_succ, List.reverse_append, List.reverse_singleton,
        List.singleton_append, List.map_cons, Nat.pow_eq]
    rw [hfirst, ofBytes_cons, hbyte, ih, Nat.mul_succ, Nat.add_comm, ofNat_add, Nat.pow_mul]

/-- The number that some bytes are is the number that their bits are. -/
theorem toNat_ofBytes (bytes : Bytes) : toNat (ofBytes bytes) = TokenForge.ofBytes bytes := by
  induction bytes using List.reverseRecOn with
  | nil => rfl
  | append_singleton bs b ih =>
    have hlast : toNat (ofNat 8 b.toNat) = b.toNat := by
      rw [toNat_ofNat]
      exact Nat.mod_eq_of_lt b.toNat_lt
    have hsingle : ofBytes [b] = ofNat 8 b.toNat := List.append_nil _
    have hnext : TokenForge.ofBytes (bs ++ [b]) = TokenForge.ofBytes bs * 256 + b.toNat := by
      rw [TokenForge.ofBytes, List.foldl_append]
      rfl
    rw [ofBytes_append, toNat_append, ih, hsingle, hlast, length_ofNat, hnext]
    norm_num

/-! ### Pieces -/

/-- A piece in front of the others. -/
theorem pieces_append (hsize : 0 < size) (hxs : xs.length = size) (ys : List α) :
    pieces size (xs ++ ys) = xs :: pieces size ys := by
  have hcount : (xs ++ ys).length / size = ys.length / size + 1 := by
    rw [List.length_append, hxs, Nat.add_comm, Nat.add_div_right _ hsize]
  have hrest : ∀ i : Nat, (xs ++ ys).drop (size * (i + 1)) = ys.drop (size * i) := fun i => by
    rw [Nat.mul_succ, Nat.add_comm, ← List.drop_drop, List.drop_left' hxs]
  rw [pieces, hcount, List.range_succ_eq_map, List.map_cons, List.map_map, pieces]
  refine congrArg₂ List.cons ?_ (List.map_congr_left fun i _ => ?_)
  · rw [Nat.mul_zero, List.drop_zero, List.take_left' hxs]
  · rw [Function.comp_apply, Nat.succ_eq_add_one, hrest]

/-- **The pieces of what is put together** of parts of one size are the parts. -/
theorem pieces_flatMap (hsize : 0 < size) {part : β → List α} (hpart : ∀ b, (part b).length = size)
    (bs : List β) : pieces size (bs.flatMap part) = bs.map part := by
  induction bs with
  | nil => simp [pieces]
  | cons b bs ih => rw [List.flatMap_cons, pieces_append hsize (hpart b), ih, List.map_cons]

/-- **The bytes of some bytes' bits are the bytes.** -/
theorem toBytes_ofBytes (bytes : Bytes) : toBytes (ofBytes bytes) = bytes := by
  have hbyte : ∀ b : UInt8, UInt8.ofNat (toNat (ofNat 8 b.toNat)) = b := fun b => by
    rw [toNat_ofNat, Nat.mod_eq_of_lt (show b.toNat < 2 ^ 8 from b.toNat_lt), UInt8.ofNat_toNat]
  have hlength : ∀ b : UInt8, (ofNat 8 b.toNat).length = 8 := fun b => length_ofNat 8 b.toNat
  -- each byte has eight bits, so they are cut where the bytes were
  have hpieces : pieces 8 (ofBytes bytes) = bytes.map fun b => ofNat 8 b.toNat := by
    rw [ofBytes, pieces_flatMap (by decide) hlength]
  rw [toBytes, hpieces, List.map_map]
  exact (List.map_congr_left fun b _ => hbyte b).trans (List.map_id bytes)

/-- **Pieces of bits are the bits of pieces of bytes.** -/
theorem pieces_ofBytes (size : Nat) (bytes : Bytes) :
    pieces (8 * size) (ofBytes bytes) = (pieces size bytes).map ofBytes := by
  rw [pieces, pieces, length_ofBytes, Nat.mul_div_mul_left _ _ (by decide), List.map_map]
  refine List.map_congr_left fun i _ => ?_
  rw [Function.comp_apply, Nat.mul_assoc, drop_ofBytes, take_ofBytes]

/-- Every piece has the size. -/
theorem length_of_mem_pieces (h : xs ∈ pieces size ys) : xs.length = size := by
  obtain ⟨i, hi, rfl⟩ := List.mem_map.mp h
  have hlt : i < ys.length / size := List.mem_range.mp hi
  have hend : size * (i + 1) ≤ ys.length :=
    (Nat.mul_le_mul_left size hlt).trans (Nat.mul_div_le ys.length size)
  rw [Nat.mul_succ] at hend
  rw [List.length_take, List.length_drop]
  omega

end Bits

/-! ### Bytes of numbers -/

theorem length_toBytes (size n : Nat) : (toBytes size n).length = size := by
  simp [toBytes]

/-- **A number is read back from its bytes**, if they are enough for it. -/
theorem ofBytes_toBytes {size n : Nat} (hn : n < 256 ^ size) : ofBytes (toBytes size n) = n := by
  have hsize : (256 : Nat) ^ size = 2 ^ (8 * size) := by rw [Nat.pow_mul]
  calc ofBytes (toBytes size n)
      = Bits.toNat (Bits.ofBytes (toBytes size n)) := (Bits.toNat_ofBytes _).symm
    _ = Bits.toNat (Bits.ofNat (8 * size) n) := by rw [Bits.ofBytes_toBytes]
    _ = n := by rw [Bits.toNat_ofNat, ← hsize, Nat.mod_eq_of_lt hn]

end TokenForge
