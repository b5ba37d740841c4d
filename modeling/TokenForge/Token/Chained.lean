import TokenForge.Base64.Encoding
import TokenForge.Json.Dump
import TokenForge.Key.Signing
import TokenForge.Text.Record
import TokenForge.Token.Certificate
import TokenForge.Token.Payload

/-!
# Tokens that carry a chain of certificates

The header lists the certificates under `x5c`, the signer's first, and the signature is made with
the signer's key. Header, payload and signature are each encoded, and joined by dots.

* `Chained.signingInput` — the header and the payload;
* `Chained.build` — the token of a payload, a key and a chain, for a nonce;
* `Chained.Options` — what a token is made of, and where the files of a directory go;
* `Chained.Options.build` — the token of some files: first the certificates, then the key.
-/

namespace TokenForge.Chained

open Json (Value)

def header (chain : List String) : Value :=
  .object [("typ", .string "JWT"), ("alg", .string "ES256"),
    ("x5c", .array (chain.map Value.string))]

def segment (v : Value) : List Char := Base64.encode Base64.urlSafe (Utf8.encode v.chars)

def signingInput (payload : Value) (chain : List String) : String :=
  String.ofList (segment (header chain) ++ '.' :: segment payload)

/-- The encoded signature of a text under the key `d`, for the nonce `k`. -/
def signature (d k : P256.Scalar) (input : String) : String :=
  String.ofList (Base64.encode Base64.urlSafe (P256.sign d k (utf8 input)).bytes)

def target : String := "jwt_fixtures::core::x5c"

def signedEvent (chain : List String) : Log.Event where
  level := .debug
  target := target
  message := "signed x5c token with ES256"
  fields := [("x5c_len", Log.count chain.length)]

/-- **The token of a payload, the text of a key and a chain**, for the nonce `k`. The payload is
checked first, then the chain, then the key. -/
def build (k : P256.Scalar) (payload : Value) (keyText : String) (chain : List String) :
    Logged String := do
  Logged.of (Payload.check payload)
  if chain.isEmpty then Logged.of (.error .emptyChain)
  let d ← Logged.of ((Key.read keyText).mapError fun fault => .invalidKey fault.message)
  let input := signingInput payload chain
  let token := input ++ "." ++ signature d k input
  Logged.emit (signedEvent chain)
  return token

/-! ### Options -/

/-- What a token is made of. -/
structure Options where
  payload : Value
  key : Path
  /-- The paths of the certificate files, the signer's first. -/
  chain : List Path

/-- The name of the key file in a directory. -/
def keyName : Path := Path.ofText "leaf_key.pem"

/-- The names of the certificate files in a directory. -/
def chainNames : List Path :=
  ["leaf_cert.pem", "intermediate_cert.pem", "root_cert.pem"].map Path.ofText

/-- The paths of the certificate files in a directory. -/
def chainIn (dir : Path) : List Path := chainNames.map dir.join

namespace Options

def inDir (dir : Path) : Options where
  payload := .object [("cool", .bool false)]
  key := dir.join keyName
  chain := chainIn dir

def dump (o : Options) : String :=
  Text.record "X5cTokenOptions"
    [("payload", o.payload.dump), ("private_key", o.key.dump),
      ("chain", Text.listed (o.chain.map Path.dump))]

end Options

def keyText (disk : Disk) (path : Path) : Except Error String :=
  (disk.readText path).mapError fun fault => .keyUnread path.shown fault.message

def chainEvent (chain : List String) : Log.Event where
  level := .info
  target := target
  message := "loaded x5c certificate chain"
  fields := [("chain_len", Log.count chain.length)]

/-- **The token of some files**, for the nonce `k`. All certificates are read, then the key, and
only then is the payload looked at. -/
def Options.build (disk : Disk) (k : P256.Scalar) (o : Options) : Logged String := do
  let chain ← Certificate.loadChain disk o.chain
  Logged.emit (chainEvent chain)
  let text ← Logged.of (keyText disk o.key)
  Chained.build k o.payload text chain

end TokenForge.Chained
