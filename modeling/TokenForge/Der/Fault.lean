import TokenForge.Der.Tag

/-!
# Faults in DER

What is wrong with some bytes, and at which byte it was found. Some faults know no place of their
own; a reader that reads a value as part of a larger one gives them the place that it has reached.

* `Kind` — what is wrong, and `Kind.message`, its wording;
* `Fault` — a kind and a place, and `Fault.message`.
-/

namespace TokenForge.Der

inductive Kind where
  /-- The bytes end before so many are there. -/
  | incomplete (expected actual : Nat)
  /-- The length is left open. -/
  | indefiniteLength
  /-- The length does not suit a value of this tag. -/
  | badLength (tag : Tag)
  /-- The value is not written in the one way in which DER writes it. -/
  | notCanonical (tag : Tag)
  | badIdentifier
  /-- A length is beyond what is read. -/
  | overflow
  /-- The number of a tag is not below 31. -/
  | tagNumber
  /-- There is a value with another tag. -/
  | unexpectedTag (expected : Option Tag) (actual : Tag)
  | unknownTag (byte : UInt8)
  | trailing (decoded remaining : Nat)
  | badValue (tag : Tag)
  deriving DecidableEq, Repr

def hexByte (b : UInt8) : String :=
  String.ofList [Nat.digitChar (b.toNat / 16), Nat.digitChar (b.toNat % 16)]

def Kind.message : Kind → String
  | .incomplete expected actual =>
    "ASN.1 DER message is incomplete: expected " ++ toString expected ++ ", actual "
      ++ toString actual
  | .indefiniteLength => "indefinite length disallowed"
  | .badLength tag => "incorrect length for " ++ tag.shown
  | .notCanonical tag => "ASN.1 " ++ tag.shown ++ " not canonically encoded as DER"
  | .badIdentifier => "malformed OID"
  | .overflow => "integer overflow"
  | .tagNumber => "invalid tag number"
  | .unexpectedTag (some expected) actual =>
    "unexpected ASN.1 DER tag: expected " ++ expected.shown ++ ", got " ++ actual.shown
  | .unexpectedTag none actual => "unexpected ASN.1 DER tag: got " ++ actual.shown
  | .unknownTag byte => "unknown/unsupported ASN.1 DER tag: 0x" ++ hexByte byte
  | .trailing decoded remaining =>
    "trailing data at end of DER message: decoded " ++ toString decoded ++ " bytes, "
      ++ toString remaining ++ " bytes remaining"
  | .badValue tag => "malformed ASN.1 DER value for " ++ tag.shown

/-- A kind of fault, and the byte at which it was found, if it has a place. -/
structure Fault where
  kind : Kind
  /-- The number of bytes before the place. -/
  place : Option Nat := none
  deriving DecidableEq, Repr

def Fault.message (f : Fault) : String :=
  match f.place with
  | some n => f.kind.message ++ " at DER byte " ++ toString n
  | none => f.kind.message

end TokenForge.Der
