import TokenForge.Text.Utf8

/-!
# Base64

Bytes as text of 64 symbols: three bytes make four symbols, and one or two bytes at the end make two
or three.

* `Alphabet` — which characters stand for 62 and 63; the others are the same in every alphabet;
* `encode` — without padding, `encodePadded` — filled up to whole quads with `=`;
* `decodeUnpadded?` — the bytes of a text without padding, if it is the encoding of some.
-/

namespace TokenForge.Base64

/-- The two symbols in which alphabets differ. -/
structure Alphabet where
  /-- The symbol for 62. -/
  minor : Char
  /-- The symbol for 63. -/
  major : Char
  deriving DecidableEq, Repr

/-- The alphabet of armored texts. -/
def standard : Alphabet := { minor := '+', major := '/' }

/-- The alphabet of tokens. -/
def urlSafe : Alphabet := { minor := '-', major := '_' }

namespace Alphabet

/-- The symbol for a number below 64. -/
def symbol (a : Alphabet) (n : Nat) : Char :=
  if n < 26 then Char.ofNat ('A'.toNat + n)
  else if n < 52 then Char.ofNat ('a'.toNat + (n - 26))
  else if n < 62 then Char.ofNat ('0'.toNat + (n - 52))
  else if n = 62 then a.minor
  else a.major

/-- The number that a symbol stands for. -/
def value? (a : Alphabet) (c : Char) : Option Nat :=
  if 'A' ≤ c ∧ c ≤ 'Z' then some (c.toNat - 'A'.toNat)
  else if 'a' ≤ c ∧ c ≤ 'z' then some (c.toNat - 'a'.toNat + 26)
  else if '0' ≤ c ∧ c ≤ '9' then some (c.toNat - '0'.toNat + 52)
  else if c = a.minor then some 62
  else if c = a.major then some 63
  else none

end Alphabet

/-! ### Encoding -/

/-- The symbols of one byte; the last holds two bits of it. -/
def encodeOne (a : Alphabet) (x : UInt8) : List Char :=
  [a.symbol (x.toNat / 4), a.symbol (x.toNat % 4 * 16)]

/-- The symbols of two bytes; the last holds four bits of them. -/
def encodeTwo (a : Alphabet) (x y : UInt8) : List Char :=
  [a.symbol (x.toNat / 4), a.symbol (x.toNat % 4 * 16 + y.toNat / 16),
    a.symbol (y.toNat % 16 * 4)]

def encodeThree (a : Alphabet) (x y z : UInt8) : List Char :=
  [a.symbol (x.toNat / 4), a.symbol (x.toNat % 4 * 16 + y.toNat / 16),
    a.symbol (y.toNat % 16 * 4 + z.toNat / 64), a.symbol (z.toNat % 64)]

/-- **The symbols of some bytes**, with no padding. -/
def encode (a : Alphabet) : Bytes → List Char
  | [] => []
  | [x] => encodeOne a x
  | [x, y] => encodeTwo a x y
  | x :: y :: z :: rest => encodeThree a x y z ++ encode a rest

/-- **The symbols of some bytes**, padded to whole quads. -/
def encodePadded (a : Alphabet) : Bytes → List Char
  | [] => []
  | [x] => encodeOne a x ++ ['=', '=']
  | [x, y] => encodeTwo a x y ++ ['=']
  | x :: y :: z :: rest => encodeThree a x y z ++ encodePadded a rest

/-! ### Decoding -/

/-- The bytes that the low 24 bits of a number hold, first byte first. -/
def threeBytes (n : Nat) : Bytes :=
  [UInt8.ofNat (n / 65536 % 256), UInt8.ofNat (n / 256 % 256), UInt8.ofNat (n % 256)]

/-- The first bytes of a quad whose symbols stand for these numbers. -/
def quadBytes (p q r s : Nat) : Bytes := threeBytes (((p * 64 + q) * 64 + r) * 64 + s)

/-- **The bytes of a text without padding**, if every character is a symbol, no symbol is left over,
and no bit is set after the last byte. -/
def decodeUnpadded? (a : Alphabet) : List Char → Option Bytes
  | [] => some []
  | [_] => none
  | [c, d] => do
    let p ← a.value? c
    let q ← a.value? d
    if q % 16 = 0 then some ((quadBytes p q 0 0).take 1) else none
  | [c, d, e] => do
    let p ← a.value? c
    let q ← a.value? d
    let r ← a.value? e
    if r % 4 = 0 then some ((quadBytes p q r 0).take 2) else none
  | c :: d :: e :: f :: rest => do
    let bytes := quadBytes (← a.value? c) (← a.value? d) (← a.value? e) (← a.value? f)
    return bytes ++ (← decodeUnpadded? a rest)

end TokenForge.Base64
