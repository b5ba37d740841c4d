import TokenForge.Hash.Sha256

/-!
# HMAC with SHA-256

The keyed hash of a message. A key longer than a block is hashed first, a shorter one is filled up
with zeros, so two keys that differ only in zeros at the end give the same code.
-/

namespace TokenForge

/-- **A key as one block.** -/
def hmacBlock (key : Bytes) : Bytes :=
  let short := if Sha256.blockSize < key.length then sha256 key else key
  short ++ List.replicate (Sha256.blockSize - short.length) 0

/-- **The code of a message under a key.** -/
def hmacSha256 (key message : Bytes) : Bytes :=
  let block := hmacBlock key
  sha256 (block.map (· ^^^ 0x5C) ++ sha256 (block.map (· ^^^ 0x36) ++ message))

@[simp] theorem length_hmacSha256 (key message : Bytes) :
    (hmacSha256 key message).length = Sha256.digestSize := length_sha256 _

end TokenForge
