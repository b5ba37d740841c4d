import TokenForge.Key.Structure
import TokenForge.P256.Ecdsa
import TokenForge.Pem.Strict

/-!
# Signing keys

The private key in a key file. A text that anywhere holds the first line of an armored key alone is
read as such a key, and every other as an armored envelope.

* `Fault` — why there is no key, and `Fault.message`, its wording; a key alone gives no reasons;
* `EcKey.signing` — the scalar of a key, which must fit its public key, if it has one;
* `ofKeyText`, `ofEnvelopeText` — the two kinds of text;
* `read` — the key of a text.
-/

namespace TokenForge.Key

/-- Why a text holds no signing key. -/
inductive Fault where
  /-- A key alone could not be read. -/
  | unreadable
  | armor (fault : Pem.Strict.Fault)
  | structure (fault : Der.Fault)
  /-- The algorithm is not the one with this object identifier. -/
  | unknownIdentifier (expected : String)
  | noParameters
  | parameters (fault : Der.Fault)
  deriving DecidableEq, Repr

def Fault.message : Fault → String
  | .unreadable => "crypto error"
  | .armor fault => "PKCS#8 ASN.1 error: PEM error: " ++ fault.message
  | .structure fault => "PKCS#8 ASN.1 error: " ++ fault.message
  | .unknownIdentifier expected =>
    "public key error: unknown/unsupported algorithm OID: " ++ expected
  | .noParameters => "public key error: AlgorithmIdentifier parameters missing"
  | .parameters fault => "public key error: ASN.1 error: " ++ fault.message

/-! ### The scalar -/

/-- The fewest bytes of a scalar. -/
def minScalarSize : Nat := 24

/-- The scalar that some bytes are; leading zeros may be missing. -/
def scalarOf? (bs : Bytes) : Option P256.Scalar :=
  if minScalarSize ≤ bs.length ∧ bs.length ≤ P256.size then P256.Scalar.ofNat? (ofBytes bs)
  else none

/-- Whether some bytes are a form of the point. -/
def isFormOf (q : P256.Point) (bs : Bytes) : Bool := bs == q.compressed || bs == q.uncompressed

/-- **The scalar of a key.** The public key, if there is one, must be that of the scalar. -/
def EcKey.signing (key : EcKey) : Except Der.Fault P256.Scalar := do
  let some d := scalarOf? key.scalar | throw { kind := .badValue .sequence }
  match key.publicKey with
  | none => return d
  | some bs =>
    if isFormOf d.publicKey bs then return d else throw { kind := .badValue .bitString }

/-! ### Texts -/

def keyLabel : String := "EC PRIVATE KEY"

def envelopeLabel : String := "PRIVATE KEY"

/-- The object identifier of keys of elliptic curves. -/
def ecIdentifier : Bytes := [0x2A, 0x86, 0x48, 0xCE, 0x3D, 0x02, 0x01]

def curveIdentifier : Bytes := [0x2A, 0x86, 0x48, 0xCE, 0x3D, 0x03, 0x01, 0x07]

/-- The key of a text with an armored key alone. -/
def ofKeyText? (text : List Char) : Option P256.Scalar := do
  let (label, bytes) ← (Pem.Strict.decode text).toOption
  if label = keyLabel.toList then (← (EcKey.decode bytes).toOption).signing.toOption else none

/-- **The object identifier in the parameters of an algorithm.** -/
def parametersIdentifier (parameters : Option (Der.Tag × Bytes)) : Except Fault Bytes :=
  match parameters with
  | none => .error .noParameters
  | some (tag, bs) =>
    if tag ≠ .objectIdentifier then
      .error (.parameters { kind := .unexpectedTag (some .objectIdentifier) tag })
    else if Der.isIdentifier bs then .ok bs
    else .error (.parameters { kind := .badIdentifier })

/-- The key in an envelope, which must be for the curve. -/
def Envelope.signing (e : Envelope) : Except Fault P256.Scalar := do
  if e.algorithm ≠ ecIdentifier then throw (.unknownIdentifier "1.2.840.10045.2.1")
  if (← parametersIdentifier e.parameters) ≠ curveIdentifier then
    throw (.unknownIdentifier "1.2.840.10045.3.1.7")
  let key ← (EcKey.decode e.key).mapError .structure
  key.signing.mapError .structure

/-- **The key of a text with an armored envelope.** That the bytes are one sequence is checked
before the label. -/
def ofEnvelopeText (text : List Char) : Except Fault P256.Scalar := do
  let (label, bytes) ← (Pem.Strict.decode text).mapError .armor
  (checkExtent bytes).mapError .structure
  if label ≠ envelopeLabel.toList then throw (.armor (.wrongLabel envelopeLabel))
  (← (Envelope.decode bytes).mapError .structure).signing

/-- The first line of an armored key alone. -/
def keyLine : List Char := Pem.beginMark ++ keyLabel.toList ++ Pem.dashes

/-- Whether a text holds a string of characters anywhere. -/
def holds (part : List Char) : List Char → Bool
  | [] => part.isEmpty
  | c :: cs => part.isPrefixOf (c :: cs) || holds part cs

/-- **The signing key of a text.** -/
def read (text : String) : Except Fault P256.Scalar :=
  if holds keyLine text.toList then
    match ofKeyText? text.toList with
    | some d => .ok d
    | none => .error .unreadable
  else ofEnvelopeText text.toList

end TokenForge.Key
