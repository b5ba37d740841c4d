import TokenForge.Hash.Sha256
import TokenForge.P256.Point

/-!
# ECDSA over P-256 with SHA-256

* `Scalar` — a number from one up to but not including the order: a private key, or a nonce;
* `sign` — the signature of a message under a key, for a nonce. It verifies whenever neither of its
  parts is zero, which for a nonce drawn at random fails with odds of about `2 ^ (-255)`;
* `verify` — whether a signature is one of a message under a public key.
-/

namespace TokenForge.P256

/-- A number that is not a multiple of the order, as its least representative. -/
structure Scalar where
  val : Nat
  pos : 0 < val := by decide
  lt : val < order := by decide
  deriving DecidableEq, Repr

def Scalar.ofNat? (n : Nat) : Option Scalar :=
  if h : 0 < n ∧ n < order then some { val := n, pos := h.1, lt := h.2 } else none

/-- A scalar for every number, such that each scalar has as many numbers as any other, up to one. -/
def Scalar.fold (n : Nat) : Scalar where
  val := n % (order - 1) + 1
  pos := Nat.succ_pos _
  lt := by
    have : n % (order - 1) < order - 1 := Nat.mod_lt _ (by decide)
    omega

def Scalar.publicKey (d : Scalar) : Point := generator.times d.val

structure Signature where
  /-- From the nonce's point. -/
  r : Nat
  /-- From the message, the key and the nonce. -/
  s : Nat
  deriving DecidableEq, Repr

/-- Both parts as 32 bytes each. -/
def Signature.bytes (sig : Signature) : Bytes := toBytes size sig.r ++ toBytes size sig.s

/-- The signature that 64 bytes are. -/
def Signature.ofBytes? (bs : Bytes) : Option Signature :=
  if bs.length = 2 * size then
    some { r := TokenForge.ofBytes (bs.take size), s := TokenForge.ofBytes (bs.drop size) }
  else none

abbrev Residue := Fin order

/-- The number that is signed for a message. -/
def digest (message : Bytes) : Residue := Fin.ofNat order (ofBytes (sha256 message))

/-- **The signature of a message** under the key `d`, for the nonce `k`. -/
def sign (d k : Scalar) (message : Bytes) : Signature :=
  let r : Residue := Fin.ofNat order (generator.times k.val).xNat
  let s := inverse (Fin.ofNat order k.val) * (digest message + r * Fin.ofNat order d.val)
  { r := r.val, s := s.val }

/-- **Whether a signature is one of a message** under the public key `q`. -/
def verify (q : Point) (message : Bytes) (sig : Signature) : Bool :=
  if 0 < sig.r ∧ sig.r < order ∧ 0 < sig.s ∧ sig.s < order then
    let w : Residue := inverse (Fin.ofNat order sig.s)
    let u₁ := digest message * w
    let u₂ := Fin.ofNat order sig.r * w
    match (generator.times u₁.val).add (q.times u₂.val) with
    | .infinity => false
    | .affine x _ => x.val % order == sig.r
  else false

end TokenForge.P256
