import Mathlib.Data.Nat.NthRoot.Defs
import Mathlib.Data.Nat.Prime.Basic
import TokenForge.Proofs.Number.Bits

/-!
# The standards of the hash and of the keyed hash

SHA-256 as FIPS 180-4 states it, on strings of bits, and HMAC as RFC 2104 states it, for any hash.
Nothing of how the hash is computed here enters: the constants are found from the primes, the number
of zeros that pad a message is the least that solves the equation of the standard, and the words of
the schedule are given by their recurrence.

* `Standard.pad` — a message padded to blocks of 512 bits;
* `Standard.schedule` — the word of a round;
* `Standard.sha256` — the digest of a string of bits, `Standard.hash` that of bytes;
* `Standard.hmac` — the code of a text under a key.
-/

namespace TokenForge.Standard

/-- A word of 32 bits, added modulo `2 ^ 32`. -/
abbrev Word := BitVec 32

/-- The word that 32 bits are. -/
def word (bs : List Bool) : Word := BitVec.ofNat 32 (Bits.toNat bs)

/-! ### The functions of words, section 4.1.2 -/

/-- Bits of `y` where `x` has a one, and bits of `z` where it has none. -/
def choice (x y z : Word) : Word := (x &&& y) ^^^ (~~~x &&& z)

/-- The bits that two of the three words have. -/
def majority (x y z : Word) : Word := (x &&& y) ^^^ (x &&& z) ^^^ (y &&& z)

def bigSigma₀ (x : Word) : Word := x.rotateRight 2 ^^^ x.rotateRight 13 ^^^ x.rotateRight 22

def bigSigma₁ (x : Word) : Word := x.rotateRight 6 ^^^ x.rotateRight 11 ^^^ x.rotateRight 25

def smallSigma₀ (x : Word) : Word := x.rotateRight 7 ^^^ x.rotateRight 18 ^^^ (x >>> 3)

def smallSigma₁ (x : Word) : Word := x.rotateRight 17 ^^^ x.rotateRight 19 ^^^ (x >>> 10)

/-! ### The constants, sections 4.2.2 and 5.3.3 -/

/-- The first 64 primes: the next one after them is 313. -/
def primes : List Nat := (List.range 312).filter Nat.Prime

/-- **The first 32 bits of the fractional part** of the `k`-th root of a number. -/
def rootFraction (k n : Nat) : Word := BitVec.ofNat 32 (Nat.nthRoot k (n * 2 ^ (32 * k)))

/-- The constants of the rounds, from the cube roots of the first 64 primes. -/
def constants : List Word := primes.map (rootFraction 3)

/-- The eight words that are hashed into. -/
structure Registers where
  a : Word
  b : Word
  c : Word
  d : Word
  e : Word
  f : Word
  g : Word
  h : Word
  deriving DecidableEq, Repr

def Registers.words (v : Registers) : List Word := [v.a, v.b, v.c, v.d, v.e, v.f, v.g, v.h]

/-- The first words, from the square roots of the first eight primes. -/
def initial : Registers :=
  { a := rootFraction 2 2, b := rootFraction 2 3, c := rootFraction 2 5, d := rootFraction 2 7,
    e := rootFraction 2 11, f := rootFraction 2 13, g := rootFraction 2 17,
    h := rootFraction 2 19 }

/-! ### Padding, section 5.1.1 -/

/-- The equation of the standard has a solution. -/
theorem exists_zeros (l : Nat) : ∃ k, (l + 1 + k) % 512 = 448 :=
  ⟨512 * l + 447 - l, by omega⟩

/-- How many zeros pad a message of `l` bits: the least `k` with `l + 1 + k = 448` modulo 512. -/
def zeros (l : Nat) : Nat := Nat.find (exists_zeros l)

/-- **A message padded to whole blocks**: a one, zeros, and its length in 64 bits. -/
def pad (message : List Bool) : List Bool :=
  message ++ true :: List.replicate (zeros message.length) false ++ Bits.ofNat 64 message.length

/-! ### The hash, section 6.2.2 -/

/-- The word `t` of a block. -/
def blockWord (block : List Bool) (t : Nat) : Word := word ((block.drop (32 * t)).take 32)

/-- **The word of round `t`**: one of the block, and after those by the recurrence. -/
def schedule (block : List Bool) (t : Nat) : Word :=
  if t < 16 then blockWord block t
  else
    smallSigma₁ (schedule block (t - 2)) + schedule block (t - 7)
      + smallSigma₀ (schedule block (t - 15)) + schedule block (t - 16)
termination_by t

/-- One round. -/
def Registers.turn (v : Registers) (constant word : Word) : Registers :=
  let t₁ := v.h + bigSigma₁ v.e + choice v.e v.f v.g + constant + word
  let t₂ := bigSigma₀ v.a + majority v.a v.b v.c
  { a := t₁ + t₂, b := v.a, c := v.b, d := v.c, e := v.d + t₁, f := v.e, g := v.f, h := v.g }

def Registers.add (v w : Registers) : Registers :=
  { a := v.a + w.a, b := v.b + w.b, c := v.c + w.c, d := v.d + w.d,
    e := v.e + w.e, f := v.f + w.f, g := v.g + w.g, h := v.h + w.h }

/-- The 64 rounds for one block. -/
def turns (v : Registers) (block : List Bool) : Registers :=
  (List.range 64).foldl (fun v t => v.turn (constants.getD t 0) (schedule block t)) v

def hashBlock (v : Registers) (block : List Bool) : Registers := v.add (turns v block)

/-- **The digest of a message**, 256 bits. -/
def sha256 (message : List Bool) : List Bool :=
  ((Bits.pieces 512 (pad message)).foldl hashBlock initial).words.flatMap fun w =>
    Bits.ofNat 32 w.toNat

/-- The digest of bytes, as bytes. -/
def hash (message : Bytes) : Bytes := Bits.toBytes (sha256 (Bits.ofBytes message))

/-! ### The keyed hash, RFC 2104 -/

def exclusiveOr (bs cs : Bytes) : Bytes := List.zipWith (· ^^^ ·) bs cs

/-- **The code of a text under a key**, for a hash that works on blocks of `size` bytes. A key longer
than a block is hashed first, and zeros are put after the key up to a block. -/
def hmac (hash : Bytes → Bytes) (size : Nat) (key text : Bytes) : Bytes :=
  let short := if size < key.length then hash key else key
  let block := short ++ List.replicate (size - short.length) 0
  let inner := List.replicate size 0x36
  let outer := List.replicate size 0x5C
  hash (exclusiveOr block outer ++ hash (exclusiveOr block inner ++ text))

/-! ### The schedule -/

variable (block : List Bool) {t : Nat}

/-- The first sixteen words are those of the block. -/
theorem schedule_of_lt (ht : t < 16) : schedule block t = blockWord block t := by
  rw [schedule, if_pos ht]

/-- Every other word comes from four before it. -/
theorem schedule_add (t : Nat) :
    schedule block (t + 16) =
      smallSigma₁ (schedule block (t + 14)) + schedule block (t + 9)
        + smallSigma₀ (schedule block (t + 1)) + schedule block t := by
  rw [schedule, if_neg (by omega)]
  rfl

end TokenForge.Standard
