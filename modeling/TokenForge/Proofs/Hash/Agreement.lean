import Mathlib.Analysis.SpecialFunctions.Pow.NthRootLemmas
import Mathlib.Tactic.Linarith
import TokenForge.Hash.Hmac
import TokenForge.Proofs.Hash.Standard

/-!
# The hash is the standard one

What is computed on bytes, with a window that slides over the schedule, is what the standard says of
bits. The two are compared layer by layer: words, constants, the rounds of a block, and padding.

* `Sha256.registers_rounds` — rounds of the window are rounds of the schedule;
* `Sha256.ofBytes_padding` — the padded bytes are the padded bits;
* `sha256_eq_hash`, `hmacSha256_eq_hmac` — the digest and the keyed hash are those of the standards.
-/

namespace TokenForge

namespace Sha256

open Standard (Registers Word)

variable {n t : Nat} {bytes block message : Bytes} {s : State}

/-! ### Words -/

/-- Two shifts that are put together rotate a word. -/
theorem toBitVec_rotr (x : UInt32) {n : UInt32} (hpos : 0 < n.toNat) (hlt : n.toNat < 32) :
    (rotr x n).toBitVec = x.toBitVec.rotateRight n.toNat := by
  -- what the one shift drops the other one brings back
  have hback : (32 - n).toNat = 32 - n.toNat :=
    UInt32.toNat_sub_of_le _ _ (UInt32.le_iff_toNat_le.mpr hlt.le)
  have hbacklt : 32 - n.toNat < 32 := by omega
  have hback32 : ((32 - n).toBitVec % 32).toNat = 32 - n.toNat := by
    rw [BitVec.toNat_umod, UInt32.toNat_toBitVec, hback]
    exact Nat.mod_eq_of_lt hbacklt
  have hn32 : (n.toBitVec % 32).toNat = n.toNat := by
    rw [BitVec.toNat_umod, UInt32.toNat_toBitVec]
    exact Nat.mod_eq_of_lt hlt
  rw [rotr, UInt32.toBitVec_or, UInt32.toBitVec_shiftRight, UInt32.toBitVec_shiftLeft,
    BitVec.rotateRight_def, Nat.mod_eq_of_lt hlt, BitVec.shiftLeft_eq', BitVec.ushiftRight_eq',
    hback32, hn32]

/-- A word taken up by one byte is the number of both. -/
theorem toNat_shiftLeft_or (w : UInt32) (b : UInt8) :
    ((w <<< 8) ||| b.toUInt32).toNat = (w.toNat * 256 + b.toNat) % 2 ^ 32 := by
  have hb : b.toNat < 2 ^ 8 := b.toNat_lt
  -- the byte fills the bits that the shift leaves empty
  have hshift : w.toNat <<< 8 % 2 ^ 32 = (w.toNat % 2 ^ 24) <<< 8 := by
    simp only [Nat.shiftLeft_eq]
    omega
  have hsum : (w.toNat % 2 ^ 24) <<< 8 ||| b.toNat = w.toNat % 2 ^ 24 * 2 ^ 8 + b.toNat := by
    rw [← Nat.shiftLeft_add_eq_or_of_lt hb, Nat.shiftLeft_eq]
  rw [UInt32.toNat_or, UInt32.toNat_shiftLeft, UInt8.toNat_toUInt32]
  change w.toNat <<< 8 % 2 ^ 32 ||| b.toNat = _
  rw [hshift, hsum]
  omega

/-- A word is the one that the bits of its bytes are. -/
theorem toBitVec_word (bytes : Bytes) :
    (word bytes).toBitVec = Standard.word (Bits.ofBytes bytes) := by
  have hnumber : (word bytes).toNat = ofBytes bytes % 2 ^ 32 := by
    induction bytes using List.reverseRecOn with
    | nil => rfl
    | append_singleton bs b ih =>
      have hword : word (bs ++ [b]) = (word bs <<< 8) ||| b.toUInt32 := by
        simp only [word, List.foldl_append, List.foldl_cons, List.foldl_nil]
      have hsucc : ofBytes (bs ++ [b]) = ofBytes bs * 256 + b.toNat := by
        simp only [ofBytes, List.foldl_append, List.foldl_cons, List.foldl_nil]
      rw [hword, hsucc, toNat_shiftLeft_or, ih]
      omega
  refine BitVec.eq_of_toNat_eq ?_
  rw [UInt32.toNat_toBitVec, hnumber, Standard.word, Bits.toNat_ofBytes, BitVec.toNat_ofNat]

/-- The bytes of a word are those of its number. -/
theorem wordBytes_eq (w : UInt32) : wordBytes w = toBytes 4 w.toNat := by
  -- each byte is what is left of the word after a shift
  have hbyte : ∀ (n : UInt32) (k : Nat), n.toNat % 32 = 8 * k →
      (w >>> n).toUInt8 = UInt8.ofNat (w.toNat / 256 ^ k % 256) := by
    intro n k hn
    refine UInt8.toNat_inj.mp ?_
    rw [UInt32.toNat_toUInt8, UInt32.toNat_shiftRight, hn, Nat.shiftRight_eq_div_pow, Nat.pow_mul,
      UInt8.toNat_ofNat', Nat.mod_mod]
  have hlast : w.toUInt8 = UInt8.ofNat (w.toNat / 256 ^ 0 % 256) := by
    rw [← hbyte 0 0 rfl]
    rfl
  rw [wordBytes, hbyte 24 3 rfl, hbyte 16 2 rfl, hbyte 8 1 rfl, hlast]
  rfl

/-- The three rotations of the first register. -/
theorem toBitVec_bigSigma₀ (x : UInt32) :
    (rotr x 2 ^^^ rotr x 13 ^^^ rotr x 22).toBitVec = Standard.bigSigma₀ x.toBitVec := by
  rw [UInt32.toBitVec_xor, UInt32.toBitVec_xor, toBitVec_rotr x (by decide) (by decide),
    toBitVec_rotr x (by decide) (by decide), toBitVec_rotr x (by decide) (by decide)]
  rfl

/-- The three rotations of the fifth register. -/
theorem toBitVec_bigSigma₁ (x : UInt32) :
    (rotr x 6 ^^^ rotr x 11 ^^^ rotr x 25).toBitVec = Standard.bigSigma₁ x.toBitVec := by
  rw [UInt32.toBitVec_xor, UInt32.toBitVec_xor, toBitVec_rotr x (by decide) (by decide),
    toBitVec_rotr x (by decide) (by decide), toBitVec_rotr x (by decide) (by decide)]
  rfl

/-- The rotations and the shift of the earlier word of the schedule. -/
theorem toBitVec_smallSigma₀ (x : UInt32) :
    (rotr x 7 ^^^ rotr x 18 ^^^ (x >>> 3)).toBitVec = Standard.smallSigma₀ x.toBitVec := by
  rw [UInt32.toBitVec_xor, UInt32.toBitVec_xor, toBitVec_rotr x (by decide) (by decide),
    toBitVec_rotr x (by decide) (by decide)]
  rfl

/-- The rotations and the shift of the later word of the schedule. -/
theorem toBitVec_smallSigma₁ (x : UInt32) :
    (rotr x 17 ^^^ rotr x 19 ^^^ (x >>> 10)).toBitVec = Standard.smallSigma₁ x.toBitVec := by
  rw [UInt32.toBitVec_xor, UInt32.toBitVec_xor, toBitVec_rotr x (by decide) (by decide),
    toBitVec_rotr x (by decide) (by decide)]
  rfl

/-! ### Constants -/

/-- The registers of a state. -/
def State.registers (s : State) : Registers where
  a := s.a.toBitVec
  b := s.b.toBitVec
  c := s.c.toBitVec
  d := s.d.toBitVec
  e := s.e.toBitVec
  f := s.f.toBitVec
  g := s.g.toBitVec
  h := s.h.toBitVec

/-- A number below `19 ^ 2` is prime if no smaller number up to 18 divides it. -/
theorem prime_iff_of_lt (htwo : 2 ≤ n) (hlt : n < 361) :
    n.Prime ↔ ∀ m ∈ List.range' 2 17, m ∣ n → m = n := by
  refine ⟨fun hn m hm hdvd => ?_, fun hall => ?_⟩
  · have hm2 : 2 ≤ m := (List.mem_range'_1.mp hm).1
    exact (hn.eq_one_or_self_of_dvd m hdvd).resolve_left (by omega)
  -- a number that is not prime has a divisor up to its root
  · by_contra hn
    have hsquare : n.minFac ^ 2 ≤ n := Nat.minFac_sq_le_self (by omega) hn
    have hprime : n.minFac.Prime := Nat.minFac_prime (by omega)
    have hsmall : n.minFac < 19 := by nlinarith
    have hself : n.minFac = n :=
      hall _ (List.mem_range'_1.mpr ⟨hprime.two_le, by omega⟩) n.minFac_dvd
    exact hn (hself ▸ hprime)

/-- The primes by trial division. -/
theorem primes_eq :
    Standard.primes = (List.range' 2 310).filter fun n => ∀ m ∈ List.range' 2 17, m ∣ n → m = n := by
  have hrange : List.range 312 = 0 :: 1 :: List.range' 2 310 := by
    rw [List.range_eq_range']
    rfl
  rw [Standard.primes, hrange, List.filter_cons_of_neg (by decide),
    List.filter_cons_of_neg (by decide)]
  refine List.filter_congr fun n hn => ?_
  have hbounds := List.mem_range'_1.mp hn
  rw [decide_eq_decide]
  exact prime_iff_of_lt (by omega) (by omega)

/-- **The table of constants** is what the cube roots of the primes begin with. -/
theorem constants_eq : Standard.constants = roundConstants.map UInt32.toBitVec := by
  rw [Standard.constants, primes_eq]
  decide +kernel

/-- The first registers are what the square roots of the primes begin with. -/
theorem registers_initial : State.initial.registers = Standard.initial := by
  decide +kernel

/-! ### Rounds -/

theorem registers_add (s r : State) : (s.add r).registers = s.registers.add r.registers := rfl

/-- **One round** turns the registers as in the standard. -/
theorem registers_round (s : State) (k w : UInt32) :
    (round s k w).registers = s.registers.turn k.toBitVec w.toBitVec := by
  simp only [round, State.registers, Registers.turn, UInt32.toBitVec_add, toBitVec_bigSigma₀,
    toBitVec_bigSigma₁]
  rfl

/-- The words of the schedule from `t` on. -/
def window (block : Bytes) (t : Nat) : List Word :=
  (List.range' t 16).map (Standard.schedule (Bits.ofBytes block))

/-- A window begins with the word of its round. -/
theorem window_eq_cons (block : Bytes) (t : Nat) :
    window block t = Standard.schedule (Bits.ofBytes block) t ::
      (List.range' (t + 1) 15).map (Standard.schedule (Bits.ofBytes block)) := rfl

/-- A window moves on by leaving out its first word and taking up the next one. -/
theorem window_succ (block : Bytes) (t : Nat) :
    window block (t + 1) =
      (window block t).drop 1 ++ [Standard.schedule (Bits.ofBytes block) (t + 16)] := by
  have hlast : List.range' (t + 1) 16 = List.range' (t + 1) 15 ++ [t + 16] := by
    rw [List.range'_concat, Nat.one_mul, Nat.add_assoc]
  rw [window, hlast, List.map_append, window_eq_cons]
  rfl

/-- A word of the window is that of the schedule. -/
theorem toBitVec_getD {words : List UInt32} (hwords : words.map UInt32.toBitVec = window block t)
    {i : Nat} (hi : i < 16) :
    (words.getD i 0).toBitVec = Standard.schedule (Bits.ofBytes block) (t + i) := by
  have hget : (window block t).getD i 0 = Standard.schedule (Bits.ofBytes block) (t + i) := by
    rw [window, List.getD_eq_getElem _ _ (by simpa using hi), List.getElem_map,
      List.getElem_range', Nat.one_mul]
  rw [← hget, ← hwords]
  exact (List.getD_map _ _ _).symm

/-- **The next word of a window** is that of the schedule. -/
theorem toBitVec_nextWord {words : List UInt32} (hwords : words.map UInt32.toBitVec = window block t) :
    (nextWord words).toBitVec = Standard.schedule (Bits.ofBytes block) (t + 16) := by
  rw [nextWord, UInt32.toBitVec_add, UInt32.toBitVec_add, UInt32.toBitVec_add,
    toBitVec_smallSigma₀, toBitVec_smallSigma₁, toBitVec_getD hwords (by decide),
    toBitVec_getD hwords (by decide), toBitVec_getD hwords (by decide),
    toBitVec_getD hwords (by decide), Standard.schedule_add, Nat.add_zero]
  ac_rfl

/-- **Rounds of the window are rounds of the schedule**, wherever the window stands. -/
theorem registers_rounds {words consts : List UInt32} (s : State)
    (hwords : words.map UInt32.toBitVec = window block t)
    (hconsts : consts.map UInt32.toBitVec =
      (List.range' t consts.length).map fun i => Standard.constants.getD i 0) :
    (rounds s words consts).registers =
      (List.range' t consts.length).foldl (fun v i =>
        v.turn (Standard.constants.getD i 0) (Standard.schedule (Bits.ofBytes block) i))
        s.registers := by
  -- the words move on with the constants, so the window is another one in each round
  induction consts generalizing s t words with
  | nil => rfl
  | cons k ks ih =>
    rw [List.length_cons, List.range'_succ, List.map_cons, List.map_cons] at hconsts
    obtain ⟨hk, hks⟩ := List.cons.inj hconsts
    have hfirst : words.headD 0 = words.getD 0 0 := by cases words <;> rfl
    have hhead : (words.headD 0).toBitVec = Standard.schedule (Bits.ofBytes block) t := by
      rw [hfirst]
      exact toBitVec_getD hwords (by decide)
    -- the window that is left stands one word further on
    have hnext : (words.drop 1 ++ [nextWord words]).map UInt32.toBitVec = window block (t + 1) := by
      rw [List.map_append, List.map_drop, hwords, List.map_singleton, toBitVec_nextWord hwords,
        window_succ]
    rw [rounds, ih _ hnext hks, registers_round, hk, hhead, List.length_cons, List.range'_succ,
      List.foldl_cons]

/-! ### Blocks -/

/-- A list of whole pieces is cut into them. -/
theorem cut_eq_pieces {α : Type} {size : Nat} (hsize : 0 < size) (fuel : Nat) {xs : List α}
    (hxs : xs.length = size * fuel) : cut size fuel xs = Bits.pieces size xs := by
  induction fuel generalizing xs with
  | zero =>
    have hnil : xs = [] := List.length_eq_zero_iff.mp (by simpa using hxs)
    simp [hnil, cut, Bits.pieces]
  | succ fuel ih =>
    rw [Nat.mul_succ] at hxs
    have hne : xs.isEmpty = false := by
      rw [List.isEmpty_eq_false_iff, ← List.length_pos_iff]
      omega
    -- a piece, and what is left is one piece less
    have htake : (xs.take size).length = size := by
      rw [List.length_take]
      omega
    have hdrop : (xs.drop size).length = size * fuel := by
      rw [List.length_drop]
      omega
    rw [cut, hne, if_neg (by decide), ih hdrop, ← Bits.pieces_append hsize htake,
      List.take_append_drop]

/-- The words of a block are those of its bits. -/
theorem map_word_block (hblock : block.length = blockSize) :
    ((cut 4 16 block).map word).map UInt32.toBitVec = window block 0 := by
  rw [cut_eq_pieces (by decide) 16 hblock, List.map_map, window, Bits.pieces, hblock, List.map_map,
    List.range_eq_range']
  -- the first sixteen words of the schedule are those of the block, four bytes each
  refine List.map_congr_left fun i hi => ?_
  have hlt : i < 16 := by simpa [blockSize] using hi
  have hbits : 32 * i = 8 * (4 * i) := by omega
  rw [Standard.schedule_of_lt _ hlt, Standard.blockWord, hbits, Bits.drop_ofBytes]
  exact (toBitVec_word _).trans (congrArg _ (Bits.take_ofBytes 4 _).symm)

/-- **A block is hashed as its bits are.** -/
theorem registers_compress (s : State) (hblock : block.length = blockSize) :
    (compress s block).registers = Standard.hashBlock s.registers (Bits.ofBytes block) := by
  have hconsts : roundConstants.map UInt32.toBitVec =
      (List.range' 0 roundConstants.length).map fun i => Standard.constants.getD i 0 := by
    rw [constants_eq]
    decide +kernel
  rw [compress, registers_add, registers_rounds s (map_word_block hblock) hconsts]
  rfl

/-! ### Padding -/

/-- The zeros that fill up a message of whole bytes: seven, and eight for each byte of zeros. -/
theorem zeros_eq (size : Nat) :
    Standard.zeros (8 * size) = 7 + 8 * ((119 - size % 64) % 64) := by
  rw [Standard.zeros, Nat.find_eq_iff]
  constructor
  · -- the number of zeros solves the equation, and no smaller one does
    omega
  · intro k hk
    omega

/-- **The padded bytes are the padded bits.** -/
theorem ofBytes_padding (message : Bytes) :
    Bits.ofBytes (message ++ padding message.length) = Standard.pad (Bits.ofBytes message) := by
  have hone : Bits.ofNat 8 (0x80 : UInt8).toNat = true :: List.replicate 7 false := by decide
  -- the first byte is the one and seven zeros, and each byte of zeros is eight more
  rw [Standard.pad, Bits.length_ofBytes, zeros_eq, padding, Bits.ofBytes_append, List.cons_append,
    Bits.ofBytes_cons, hone, Bits.ofBytes_append, Bits.ofBytes_replicate_zero,
    Bits.ofBytes_toBytes, List.replicate_add, Nat.mul_comm message.length 8]
  simp only [List.append_assoc, List.cons_append]

/-- A padded message is a number of whole blocks. -/
theorem blockSize_dvd_padded (message : Bytes) :
    blockSize ∣ (message ++ padding message.length).length := by
  rw [List.length_append, padding, List.length_append, List.length_cons, List.length_replicate,
    length_toBytes, blockSize]
  omega

/-- The blocks of a message are the pieces of it as it is padded. -/
theorem blocks_eq (message : Bytes) :
    blocks message = Bits.pieces blockSize (message ++ padding message.length) :=
  cut_eq_pieces (by decide) _ (Nat.mul_div_cancel' (blockSize_dvd_padded message)).symm

/-- **The blocks of a message are those of its bits.** -/
theorem map_blocks (message : Bytes) :
    (blocks message).map Bits.ofBytes =
      Bits.pieces 512 (Standard.pad (Bits.ofBytes message)) := by
  rw [blocks_eq, ← ofBytes_padding]
  exact (Bits.pieces_ofBytes blockSize _).symm

theorem length_of_mem_blocks (h : block ∈ blocks message) : block.length = blockSize := by
  rw [blocks_eq] at h
  exact Bits.length_of_mem_pieces h

/-- **Blocks one after the other**, from any state. -/
theorem registers_foldl (bs : List Bytes) (hbs : ∀ b ∈ bs, b.length = blockSize) (s : State) :
    (bs.foldl compress s).registers =
      (bs.map Bits.ofBytes).foldl Standard.hashBlock s.registers := by
  induction bs generalizing s with
  | nil => rfl
  | cons b bs ih =>
    rw [List.foldl_cons, List.map_cons, List.foldl_cons,
      ih (fun c hc => hbs c (List.mem_cons_of_mem b hc)),
      registers_compress s (hbs b List.mem_cons_self)]

/-- The words of a state as bits are the bits of its bytes. -/
theorem flatMap_words (s : State) :
    s.registers.words.flatMap (fun w => Bits.ofNat 32 w.toNat) =
      Bits.ofBytes (s.words.flatMap wordBytes) := by
  have hword : ∀ w : UInt32, Bits.ofBytes (wordBytes w) = Bits.ofNat 32 w.toBitVec.toNat := by
    intro w
    rw [wordBytes_eq, Bits.ofBytes_toBytes]
    rfl
  have hwords : s.registers.words = s.words.map UInt32.toBitVec := rfl
  rw [hwords, List.flatMap_map, Bits.ofBytes, List.flatMap_assoc]
  exact List.flatMap_congr fun w _ => (hword w).symm

end Sha256

/-- **The hash is that of the standard**, for every message. -/
theorem sha256_eq_hash (message : Bytes) : sha256 message = Standard.hash message := by
  have hblocks : ∀ b ∈ Sha256.blocks message, b.length = 64 := fun b => Sha256.length_of_mem_blocks
  -- padding, blocks and first words agree, and so do the digests as bits
  have hbits : Bits.ofBytes (sha256 message) = Standard.sha256 (Bits.ofBytes message) := by
    rw [sha256, ← Sha256.flatMap_words, Sha256.registers_foldl _ hblocks, Sha256.map_blocks,
      Sha256.registers_initial]
    rfl
  rw [Standard.hash, ← hbits, Bits.toBytes_ofBytes]

example : Standard.hash (utf8 "abc") =
    [0xba, 0x78, 0x16, 0xbf, 0x8f, 0x01, 0xcf, 0xea, 0x41, 0x41, 0x40, 0xde, 0x5d, 0xae, 0x22, 0x23,
      0xb0, 0x03, 0x61, 0xa3, 0x96, 0x17, 0x7a, 0x9c, 0xb4, 0x10, 0xff, 0x61, 0xf2, 0x00, 0x15,
      0xad] := by
  rw [← sha256_eq_hash]
  decide +kernel

/-! ### The keyed hash -/

/-- The same byte is added to each byte. -/
theorem exclusiveOr_replicate (bs : Bytes) (b : UInt8) :
    Standard.exclusiveOr bs (List.replicate bs.length b) = bs.map (· ^^^ b) := by
  induction bs with
  | nil => rfl
  | cons c bs ih =>
    rw [List.length_cons, List.replicate_succ, List.map_cons, ← ih]
    rfl

/-- A key that is longer than a block is hashed, and the digest is no longer than one. -/
theorem length_hmacBlock (key : Bytes) : (hmacBlock key).length = Sha256.blockSize := by
  have hshort : (if Sha256.blockSize < key.length then sha256 key else key).length ≤
      Sha256.blockSize := by
    split_ifs with hlong
    · rw [length_sha256]
      decide
    · exact Nat.not_lt.mp hlong
  rw [hmacBlock, List.length_append, List.length_replicate, Nat.add_sub_cancel' hshort]

/-- **The keyed hash is that of the standard**, for every key and every message. -/
theorem hmacSha256_eq_hmac (key message : Bytes) :
    hmacSha256 key message = Standard.hmac Standard.hash 64 key message := by
  have hhash : Standard.hash = sha256 := funext fun m => (sha256_eq_hash m).symm
  have hlength := length_hmacBlock key
  -- the pads of the standard are as long as the block of the key
  have hxor : ∀ b : UInt8, (hmacBlock key).map (· ^^^ b) =
      Standard.exclusiveOr (hmacBlock key) (List.replicate 64 b) := by
    intro b
    rw [← exclusiveOr_replicate, hlength]
    rfl
  rw [hmacSha256, hxor, hxor, hhash]
  rfl

end TokenForge
