import TokenForge.Base64.Encoding

/-!
# Reading padded base64

The reader of armored data, in the standard alphabet. It accepts the padded encoding of some bytes
and nothing else, and says of every other text where it stops being one. All quads but the last hold
symbols only; the last may be short, and may end in padding.

* `Fault` — what is wrong, with an offset in bytes, and `Fault.message`, its wording;
* `lastQuad` — the bytes of what comes after all quads but the last;
* `decode` — the bytes of a whole text. A text of `4 n + 1` bytes whose last byte is neither a
  symbol nor padding is reported for that byte, whatever comes before it.
-/

namespace TokenForge.Base64

inductive Fault where
  /-- This byte, at this offset, is no symbol, or is padding out of its place. -/
  | symbol (byte : UInt8) (offset : Nat)
  /-- A text of so many bytes leaves one symbol over. -/
  | length (size : Nat)
  /-- This symbol, at this offset, is the last and sets bits after the last byte. -/
  | lastSymbol (byte : UInt8) (offset : Nat)
  /-- There is too little padding. -/
  | padding
  deriving DecidableEq, Repr

def Fault.message : Fault → String
  | .symbol b i => "Invalid symbol " ++ toString b.toNat ++ ", offset " ++ toString i ++ "."
  | .length n => "Invalid input length: " ++ toString n
  | .lastSymbol b i =>
    "Invalid last symbol " ++ toString b.toNat ++ ", offset " ++ toString i ++ "."
  | .padding => "Invalid padding"

def pad : UInt8 := 0x3D

/-- The number that a byte stands for in the standard alphabet. -/
def byteValue? (b : UInt8) : Option Nat := standard.value? (Char.ofNat b.toNat)

/-- The number that the byte at an offset stands for. -/
def valueAt (offset : Nat) (b : UInt8) : Except Fault Nat :=
  match byteValue? b with
  | some n => .ok n
  | none => .error (.symbol b offset)

/-- **The symbols at the end of a text.** `index` counts the bytes read before, and `padded` is
where padding began. Padding comes after two symbols at least, and nothing but padding after it. -/
def lastSymbols (offset index : Nat) (padded : Option Nat) : Bytes → Except Fault (List Nat × Nat)
  | [] => .ok ([], 0)
  | b :: rest =>
    if b = pad then
      if index < 2 then .error (.symbol b (offset + index))
      else do
        let (values, pads) ← lastSymbols offset (index + 1) (some (padded.getD index)) rest
        return (values, pads + 1)
    else match padded with
      | some first => .error (.symbol pad (offset + first))
      | none => do
        let n ← valueAt (offset + index) b
        let (values, pads) ← lastSymbols offset (index + 1) none rest
        return (n :: values, pads)

/-- **The bytes at the end of a text**: at most four bytes from `offset` on. -/
def lastQuad (offset : Nat) (bs : Bytes) : Except Fault Bytes := do
  let (values, pads) ← lastSymbols offset 0 none bs
  if bs ≠ [] ∧ values.length < 2 then throw (.length (offset + values.length))
  if (values.length + pads) % 4 ≠ 0 then throw .padding
  let blame := Fault.lastSymbol ((bs.drop (values.length - 1)).headD 0) (offset + values.length - 1)
  match values with
  | [p, q] => if q % 16 = 0 then return (quadBytes p q 0 0).take 1 else throw blame
  | [p, q, r] => if r % 4 = 0 then return (quadBytes p q r 0).take 2 else throw blame
  | [p, q, r, s] => return quadBytes p q r s
  | _ => return []

/-- The bytes of a text from `offset` on, quad by quad. -/
def quads (offset : Nat) : Bytes → Except Fault Bytes
  | a :: b :: c :: d :: e :: rest => do
    let p ← valueAt offset a
    let q ← valueAt (offset + 1) b
    let r ← valueAt (offset + 2) c
    let s ← valueAt (offset + 3) d
    return quadBytes p q r s ++ (← quads (offset + 4) (e :: rest))
  | last => lastQuad offset last

/-- **The bytes of a padded text.** -/
def decode (bs : Bytes) : Except Fault Bytes :=
  match bs.getLast? with
  | some b =>
    if bs.length % 4 = 1 ∧ b ≠ pad ∧ byteValue? b = none then .error (.symbol b (bs.length - 1))
    else quads 0 bs
  | none => .ok []

end TokenForge.Base64
