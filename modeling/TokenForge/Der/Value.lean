import TokenForge.Der.Reader

/-!
# DER values

Readers for the types of value that keys are made of.

* `smallInteger`, `octetString`, `bits`, `any` — plain values;
* `isIdentifier` and `identifier` — object identifiers, kept as their content bytes;
* `field?` — a value that may be there under a context-specific number, `explicit` — the value
  inside such a number, `implicitBits` — a bit string under one.
-/

namespace TokenForge.Der

/-! ### Object identifiers -/

/-- The most bytes of an object identifier. -/
def maxIdentifier : Nat := 39

/-- Whether some bytes are arcs, of which `n` bytes of the first were read before. An arc ends with
a byte below 128 and has at most five bytes, the fifth below 16. -/
def areArcs (n : Nat) : Bytes → Bool
  | [] => n = 0
  | b :: rest =>
    if 4 ≤ n ∧ 16 ≤ b then false
    else if b < 128 then areArcs 0 rest
    else areArcs (n + 1) rest

/-- **Whether some bytes are an object identifier**: three arcs at least, of which the first two
share the first byte. -/
def isIdentifier (bs : Bytes) : Bool :=
  3 ≤ bs.length && bs.length ≤ maxIdentifier && bs.headD 0 < 120 && areArcs 0 (bs.drop 1)

namespace Reader

/-- An object identifier of `n` bytes. -/
def identifierOf (n : Nat) : Reader Bytes := do
  if maxIdentifier < n then fail (.badLength .objectIdentifier)
  let bs ← take n
  if isIdentifier bs then return bs else fail .badIdentifier

def identifier : Reader Bytes := do identifierOf (← expect .objectIdentifier)

/-! ### Integers and strings -/

/-- **An integer from 0 to 255**, in at least one byte, with a zero in front only if its high bit is
set. -/
def smallInteger : Reader Nat := do
  let n ← expect .integer
  if n = 0 ∨ 2 < n then fail (.notCanonical .integer)
  match ← take n with
  | [b] => if b < 0x80 then return b.toNat else fail (.badValue .integer)
  | [a, b] =>
    if a = 0 then if b < 0x80 then fail (.notCanonical .integer) else return b.toNat
    else if a < 0x80 then fail (.badLength .integer)
    else fail (.badValue .integer)
  | _ => fail (.badLength .integer)

def octetString : Reader Bytes := do take (← expect .octetString)

/-- **The bytes of a bit string of `n` bytes**, and how many bits of the last are unused. -/
def bitsOf (n : Nat) : Reader (Nat × Bytes) := do
  if n = 0 then fail .overflow
  let unused ← byte
  let bs ← take (n - 1)
  if 7 < unused ∨ (unused ≠ 0 ∧ bs = []) then fail (.badValue .bitString)
  return (unused.toNat, bs)

def bits : Reader (Nat × Bytes) := do bitsOf (← expect .bitString)

/-- The bytes of a bit string of which all bits are used. -/
def wholeBits (value : Nat × Bytes) : Reader Bytes :=
  if value.1 = 0 then return value.2 else fail (.badValue .bitString)

/-- Any value: its tag and its content. -/
def any : Reader (Tag × Bytes) := do
  let (tag, n) ← header
  return (tag, ← take n)

/-- Any value, if something is left. The tag is looked at first. -/
def any? : Reader (Option (Tag × Bytes)) := do
  match ← peek? with
  | none => return none
  | some b =>
    let _ ← tagOf b
    return some (← any)

/-! ### Context-specific values -/

/-- **The value under a context-specific number, if it is there**, read by `r` from its tag on.
Context-specific values with lower numbers are skipped; `fuel` bounds them. -/
def fieldFrom? {α : Type} (number : Nat) (r : Reader α) : Nat → Reader (Option α)
  | 0 => return none
  | fuel + 1 => do
    match ← peek? with
    | none => return none
    | some b =>
      match ← tagOf b with
      | .other .contextSpecific _ n =>
        if number < n then return none
        else if n = number then return some (← r)
        else
          let _ ← any
          fieldFrom? number r fuel
      | _ => return none

def field? {α : Type} (number : Nat) (r : Reader α) : Reader (Option α) := do
  fieldFrom? number r ((← get).rest.length + 1)

/-- **The value inside a context-specific one**, read by `r` from its own tag on. -/
def explicit {α : Type} (r : Reader α) : Reader α := do
  let (tag, n) ← header
  match tag with
  | .other .contextSpecific true _ => inside n r
  | _ => fail (.unexpectedTag none tag)

/-- **A bit string under another tag**, which must not be that of a constructed value. -/
def implicitBits : Reader (Nat × Bytes) := do
  let (tag, n) ← header
  let value ← bitsOf n
  match tag with
  | .other _ true _ => fail (.notCanonical tag)
  | _ => return value

/-- Context-specific values up to the end; `fuel` bounds them. -/
def restFrom : Nat → Reader Unit
  | 0 => return ()
  | fuel + 1 => do
    if ← atEnd then return ()
    let _ ← located (explicit any)
    restFrom fuel

/-- **Context-specific values up to the end**, whatever is in them. -/
def restFields : Reader Unit := do restFrom ((← get).rest.length + 1)

end Reader

end TokenForge.Der
