import Mathlib.Data.List.DropRight
import TokenForge.Proofs.Base64.Unpadded
import TokenForge.Proofs.Hash.Agreement
import TokenForge.Proofs.Token.Framing

/-!
# The signature of a token whose payload is not encoded

What follows the last dot of such a token is the keyed hash of what comes before it, as the standards
have it (`Unencoded.build_keyed`). A key is filled up with zeros to a block, so secrets that fit into
one and differ in the zeros at their end alone are the same key.

* `Unencoded.stem` — a secret without the zeros at its end;
* `hmacSha256_append_replicate` — zeros after a key that still fit into the block do not count.
-/

namespace TokenForge

/-! ### Zeros at the end of a key -/

/-- **Zeros after a key do not count**, as long as they fit into the block. -/
theorem hmacBlock_append_replicate (key : Bytes) {k : Nat}
    (hfit : (key ++ List.replicate k 0).length ≤ Sha256.blockSize) :
    hmacBlock (key ++ List.replicate k 0) =
      key ++ List.replicate (Sha256.blockSize - key.length) 0 := by
  have hlength : (key ++ List.replicate k 0).length = key.length + k := by
    rw [List.length_append, List.length_replicate]
  have hfill : k + (Sha256.blockSize - (key.length + k)) = Sha256.blockSize - key.length := by
    omega
  rw [hmacBlock, if_neg (Nat.not_lt.mpr hfit)]
  calc (key ++ List.replicate k 0) ++
        List.replicate (Sha256.blockSize - (key ++ List.replicate k 0).length) 0
      = key ++ (List.replicate k 0 ++
          List.replicate (Sha256.blockSize - (key.length + k)) 0) := by
        rw [hlength, List.append_assoc]
    _ = key ++ List.replicate (Sha256.blockSize - key.length) 0 := by
        rw [← List.replicate_add, hfill]

/-- The keyed hash is the same for any number of zeros that fit into the block. -/
theorem hmacSha256_append_replicate (key message : Bytes) {k l : Nat}
    (hk : (key ++ List.replicate k 0).length ≤ Sha256.blockSize)
    (hl : (key ++ List.replicate l 0).length ≤ Sha256.blockSize) :
    hmacSha256 (key ++ List.replicate k 0) message =
      hmacSha256 (key ++ List.replicate l 0) message := by
  rw [hmacSha256, hmacBlock_append_replicate key hk, hmacSha256, hmacBlock_append_replicate key hl]

namespace Unencoded

open Json (Value)

variable {payload : Value} {secret other : String}

/-- A secret without the NUL characters at its end. -/
def stem (secret : String) : List Char := secret.toList.rdropWhile (· == '\x00')

/-- **A secret is its stem and zeros.** -/
theorem exists_utf8_eq (secret : String) :
    ∃ k, utf8 secret = Utf8.encode (stem secret) ++ List.replicate k 0 := by
  have hzeros : ∀ k : Nat, Utf8.encode (List.replicate k '\x00') = List.replicate k 0 := by
    intro k
    have hzero : String.utf8EncodeChar '\x00' = [0] := by decide
    induction k with
    | zero => rfl
    | succ k ih =>
      rw [List.replicate_succ, Utf8.encode, List.flatMap_cons, ← Utf8.encode, ih, hzero]
      rfl
  -- what is cut off is nothing but NUL characters, and each is one byte, zero
  have htail : ∀ c ∈ secret.toList.rtakeWhile (· == '\x00'), c = '\x00' := by
    intro c hc
    have hnul := List.mem_rtakeWhile_imp hc
    exact beq_iff_eq.mp hnul
  refine ⟨(secret.toList.rtakeWhile (· == '\x00')).length, ?_⟩
  calc utf8 secret
      = Utf8.encode secret.toList := by rw [← utf8_ofList, String.ofList_toList]
    _ = Utf8.encode (stem secret ++ secret.toList.rtakeWhile (· == '\x00')) := by
        rw [stem, List.rdropWhile_append_rtakeWhile]
    _ = Utf8.encode (stem secret) ++
          List.replicate (secret.toList.rtakeWhile (· == '\x00')).length 0 := by
        rw [Utf8.encode_append, List.eq_replicate_of_mem htail, hzeros, List.length_replicate]

/-- Secrets of one stem that fit into a block are the same key. -/
theorem hmacSha256_eq_of_stem_eq (hsecret : (utf8 secret).length ≤ Sha256.blockSize)
    (hother : (utf8 other).length ≤ Sha256.blockSize) (hstem : stem other = stem secret)
    (message : Bytes) : hmacSha256 (utf8 other) message = hmacSha256 (utf8 secret) message := by
  obtain ⟨k, hk⟩ := exists_utf8_eq secret
  obtain ⟨l, hl⟩ := exists_utf8_eq other
  rw [hstem] at hl
  rw [hk] at hsecret ⊢
  rw [hl] at hother ⊢
  exact hmacSha256_append_replicate _ message hother hsecret

/-- **The signature is the standard one.** An object and a secret that is not empty give a token.
What follows its last dot is the encoding of 32 bytes, the HMAC with SHA-256 of the bytes before that
dot under the bytes of the secret, as RFC 2104 and FIPS 180-4 define it. And if the secret fits into
a block of 64 bytes, then any other that does and differs from it in the NUL characters at the end
alone gives the same for every payload. -/
theorem build_keyed (hobj : payload.isObject = true) (hsecret : secret ≠ "") :
    (∃ (token : String) (input sig : List Char) (mac : Bytes),
      (build payload secret).result = .ok token ∧
      Text.cutLast? '.' token.toList = some (input, sig) ∧
      Base64.decodeUnpadded? Base64.urlSafe sig = some mac ∧ mac.length = 32 ∧
      mac = Standard.hmac Standard.hash 64 (utf8 secret) (Utf8.encode input)) ∧
    ∀ other : String, other ≠ "" → stem other = stem secret →
      (utf8 secret).length ≤ 64 → (utf8 other).length ≤ 64 →
        ∀ value : Value, build value other = build value secret := by
  constructor
  · -- the signature is computed, the standard is about bits, and the two agree
    have hbytes : utf8 (signingInput payload) = Utf8.encode (signingInput payload).toList := by
      rw [← utf8_ofList, String.ofList_toList]
    refine ⟨signed payload secret, (signingInput payload).toList, _,
      hmacSha256 (utf8 secret) (utf8 (signingInput payload)),
      result_build_eq_ok_iff.mpr ⟨hobj, hsecret, rfl⟩, cutLast?_signed payload secret, ?_,
      length_hmacSha256 _ _, ?_⟩
    · rw [signature, String.toList_ofList]
      exact Base64.decodeUnpadded?_encode Base64.isReadable_urlSafe _
    · rw [hmacSha256_eq_hmac, hbytes]
  · intro other hother hstem hfit hfitOther value
    have hsignature : ∀ input, signature other input = signature secret input := fun input => by
      rw [signature, hmacSha256_eq_of_stem_eq hfit hfitOther hstem, signature]
    have hnonempty : other.isEmpty = secret.isEmpty := by
      rw [Bool.eq_iff_iff, String.isEmpty_iff, String.isEmpty_iff]
      exact iff_of_false hother hsecret
    -- the secret is looked at in two places: whether it is empty, and for the signature
    simp only [build, hnonempty, hsignature]

/-- A secret of one character, and the same with two NUL characters behind it. -/
theorem build_keyed_filled :
    dotted.isObject = true ∧ "k" ≠ "" ∧
      (∃ (token : String) (input sig : List Char) (mac : Bytes),
        (build dotted "k").result = .ok token ∧
        Text.cutLast? '.' token.toList = some (input, sig) ∧
        Base64.decodeUnpadded? Base64.urlSafe sig = some mac ∧ mac.length = 32 ∧
        mac = Standard.hmac Standard.hash 64 (utf8 "k") (Utf8.encode input)) ∧
      build dotted "k\x00\x00" = build dotted "k" := by
  obtain ⟨hkeyed, hfilled⟩ := @build_keyed dotted "k" rfl (by decide)
  have hstem : stem "k\x00\x00" = stem "k" := by decide
  exact ⟨rfl, by decide, hkeyed, hfilled _ (by decide) hstem (by decide) (by decide) dotted⟩

end Unencoded

end TokenForge
