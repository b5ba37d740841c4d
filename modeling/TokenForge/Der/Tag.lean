/-!
# Tags of DER values

A tag is one byte: two bits of class, one bit that is set when the value is built of other values,
and a number below 31. Of the universal class only the tags listed here are known.

* `Tag` and `Tag.ofByte` — a tag, and the tag that a byte is;
* `Tag.shown` — its name in messages.
-/

namespace TokenForge.Der

/-- The types of the universal class. -/
inductive Universal where
  | boolean
  | integer
  | bitString
  | octetString
  | null
  | objectIdentifier
  | real
  | enumerated
  | utf8String
  | numericString
  | printableString
  | teletexString
  | videotexString
  | ia5String
  | utcTime
  | generalizedTime
  | visibleString
  | bmpString
  | sequence
  | set
  deriving DecidableEq, Repr

/-- The universal types with their bytes and their names. -/
def Universal.table : List (UInt8 × Universal × String) :=
  [(0x01, .boolean, "BOOLEAN"), (0x02, .integer, "INTEGER"), (0x03, .bitString, "BIT STRING"),
    (0x04, .octetString, "OCTET STRING"), (0x05, .null, "NULL"),
    (0x06, .objectIdentifier, "OBJECT IDENTIFIER"), (0x09, .real, "REAL"),
    (0x0A, .enumerated, "ENUMERATED"), (0x0C, .utf8String, "UTF8String"),
    (0x12, .numericString, "NumericString"), (0x13, .printableString, "PrintableString"),
    (0x14, .teletexString, "TeletexString"), (0x15, .videotexString, "VideotexString"),
    (0x16, .ia5String, "IA5String"), (0x17, .utcTime, "UTCTime"),
    (0x18, .generalizedTime, "GeneralizedTime"), (0x1A, .visibleString, "VisibleString"),
    (0x1E, .bmpString, "BMPString"), (0x30, .sequence, "SEQUENCE"), (0x31, .set, "SET")]

/-- The other classes. -/
inductive Class where
  | application
  | contextSpecific
  | privateUse
  deriving DecidableEq, Repr

inductive Tag where
  | universal (type : Universal)
  /-- A number in another class. -/
  | other (cls : Class) (constructed : Bool) (number : Nat)
  deriving DecidableEq, Repr

namespace Tag

def integer : Tag := .universal .integer

def bitString : Tag := .universal .bitString

def octetString : Tag := .universal .octetString

def objectIdentifier : Tag := .universal .objectIdentifier

def sequence : Tag := .universal .sequence

/-- Why a byte is no tag. -/
inductive Refusal where
  /-- The number is 31, which stands for tags of more than one byte. -/
  | number
  | unknown
  deriving DecidableEq, Repr

/-- **The tag that a byte is.** -/
def ofByte (b : UInt8) : Except Refusal Tag :=
  let number := b.toNat % 32
  let constructed := b.toNat / 32 % 2 = 1
  if number = 31 then .error .number
  else if b < 0x40 then
    match Universal.table.find? fun row => row.1 = b with
    | some row => .ok (.universal row.2.1)
    | none => .error .unknown
  else if b < 0x80 then .ok (.other .application constructed number)
  else if b < 0xC0 then .ok (.other .contextSpecific constructed number)
  else .ok (.other .privateUse constructed number)

def classShown : Class → String
  | .application => "APPLICATION"
  | .contextSpecific => "CONTEXT-SPECIFIC"
  | .privateUse => "PRIVATE"

/-- The name of a tag in messages. -/
def shown : Tag → String
  | .universal type =>
    ((Universal.table.find? fun row => row.2.1 = type).map fun row => row.2.2).getD ""
  | .other cls constructed number =>
    classShown cls ++ " [" ++ toString number ++ "] ("
      ++ (if constructed then "constructed" else "primitive") ++ ")"

end Tag

end TokenForge.Der
