import TokenForge.Der.Value

/-!
# Private keys in DER

The two structures in which a private key of an elliptic curve comes.

* `EcKey` and `EcKey.reader` — the key alone: the scalar, and perhaps the curve and the public key;
* `Envelope` and `Envelope.reader` — an algorithm with its parameters, and the key as bytes;
* `checkExtent` — whether bytes are one sequence, before they are read as an envelope.
-/

namespace TokenForge.Key

open Der Der.Reader

/-- A private key of an elliptic curve. -/
structure EcKey where
  scalar : Bytes
  publicKey : Option Bytes
  deriving DecidableEq, Repr

def curveField : Nat := 0

def publicKeyField : Nat := 1

/-- **A key**: the version 1, the scalar, and perhaps a curve and a public key. Which curve is named
does not matter here. -/
def EcKey.reader : Reader EcKey := do
  inside (← expect .sequence) do
    if (← smallInteger) ≠ 1 then fail (.badValue .integer)
    let scalar ← octetString
    let _ ← field? curveField (explicit identifier)
    let publicKey ← field? publicKeyField (explicit bits)
    return { scalar := scalar, publicKey := ← publicKey.mapM wholeBits }

def EcKey.decode (bs : Bytes) : Except Fault EcKey := whole EcKey.reader bs

/-- An algorithm and a key as bytes. -/
structure Envelope where
  /-- The object identifier of the algorithm. -/
  algorithm : Bytes
  parameters : Option (Tag × Bytes)
  key : Bytes
  deriving DecidableEq, Repr

def algorithmReader : Reader (Bytes × Option (Tag × Bytes)) := do
  inside (← expect .sequence) do
    return (← located identifier, ← located any?)

/-- The fault that a public key is there or not, against the version. -/
def publicKeyFault (c : Cursor) : Fault :=
  { kind := .badValue (.other .contextSpecific true publicKeyField), place := some c.offset }

/-- **An envelope**: the version, the algorithm, the key, a public key exactly if the version is 1,
and whatever context-specific values follow. -/
def Envelope.reader : Reader Envelope := do
  inside (← expect .sequence) do
    let version ← smallInteger
    if 1 < version then fail (.badValue .integer)
    let (algorithm, parameters) ← located algorithmReader
    let key ← octetString
    let publicKey ← (← field? publicKeyField implicitBits).mapM wholeBits
    if (version = 1) ≠ publicKey.isSome then throw (publicKeyFault (← get))
    restFields
    return { algorithm := algorithm, parameters := parameters, key := key }

def Envelope.decode (bs : Bytes) : Except Fault Envelope := whole Envelope.reader bs

/-- The size of the sequence at the front, with its tag and length; nothing is read of it. -/
def sequenceSize : Reader Nat := do
  let (tag, n) ← header
  if tag ≠ .sequence then fail (.unexpectedTag (some .sequence) tag)
  let size := 1 + lengthSize n + n
  if maxLength < size then fail .overflow
  return size

/-- **Whether bytes are one sequence and nothing more.** -/
def checkExtent (bs : Bytes) : Except Fault Unit :=
  match (sequenceSize.run { rest := bs } : _ × Cursor).1 with
  | .error fault => .error fault
  | .ok size => whole (do let _ ← take size) bs

end TokenForge.Key
