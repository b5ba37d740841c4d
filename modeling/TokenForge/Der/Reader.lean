import TokenForge.Der.Fault
import TokenForge.Text.Utf8

/-!
# Reading DER

A reader takes bytes from a cursor. Where it fails, the cursor stays where it was, since the place
of a fault may depend on how far the values around it were read.

* `Cursor` — the bytes left, and how many were read, in the value at hand and in all;
* `Reader` — a reader; `take` reads bytes, `inside` the content of a value, `located` gives faults
  the place that was reached;
* `header` — the tag and the length of a value; `expect` — of a value with a given tag;
* `whole` — all of some bytes.
-/

namespace TokenForge.Der

/-- Where a reader is. -/
structure Cursor where
  /-- The bytes left of the value at hand. -/
  rest : Bytes
  /-- The bytes read of the value at hand. -/
  position : Nat := 0
  /-- The bytes read of everything. -/
  offset : Nat := 0
  deriving DecidableEq, Repr

/-- A reader: it may fail, and moves the cursor either way. -/
abbrev Reader := ExceptT Fault (StateM Cursor)

def maxLength : Nat := 0xFFFFFFF

namespace Reader

def fail {α : Type} (kind : Kind) : Reader α := throw { kind := kind }

/-- The fault that `n` bytes are not there, unless that place is beyond every length. -/
def short (c : Cursor) (n : Nat) : Fault :=
  if maxLength < c.offset + n then { kind := .overflow }
  else { kind := .incomplete (c.offset + n) (c.offset + c.rest.length), place := some c.offset }

/-- **The next `n` bytes.** -/
def take (n : Nat) : Reader Bytes := do
  let c ← get
  if c.rest.length < n then throw (short c n)
  set ({ rest := c.rest.drop n, position := c.position + n, offset := c.offset + n } : Cursor)
  return c.rest.take n

def byte : Reader UInt8 := do return (← take 1).headD 0

/-- The next byte, if there is one; the cursor stays. -/
def peek? : Reader (Option UInt8) := do return (← get).rest.head?

def atEnd : Reader Bool := do return (← get).rest.isEmpty

def leftover (c : Cursor) : Fault :=
  { kind := .trailing c.position c.rest.length, place := some c.position }

/-- **The next `n` bytes read by `r`**, which must read them all. -/
def inside {α : Type} (n : Nat) (r : Reader α) : Reader α := do
  let c ← get
  if c.rest.length < n then throw (short c n)
  let (result, inner) := (r.run { rest := c.rest.take n, offset := c.offset } : _ × Cursor)
  let read := inner.position
  set ({ rest := c.rest.drop read, position := c.position + read, offset := c.offset + read }
    : Cursor)
  match result with
  | .error fault => throw fault
  | .ok value => if inner.rest.isEmpty then return value else throw (leftover inner)

/-- **A reader whose faults are placed where the cursor is** when they are found, as far as they
have no place of their own, and that many bytes further if they have one. -/
def located {α : Type} (r : Reader α) : Reader α :=
  tryCatch r fun fault => do
    let c ← get
    throw { fault with place := some (c.position + fault.place.getD 0) }

/-! ### Tags and lengths -/

def tagOf (b : UInt8) : Reader Tag :=
  match Tag.ofByte b with
  | .ok tag => return tag
  | .error .number => fail .tagNumber
  | .error .unknown => fail (.unknownTag b)

/-- The bytes that the length `n` takes. -/
def lengthSize (n : Nat) : Nat :=
  if n < 0x80 then 1
  else if n < 0x100 then 2
  else if n < 0x10000 then 3
  else if n < 0x1000000 then 4
  else 5

/-- **The length of a value with the given tag.** It takes as few bytes as it can. -/
def length (tag : Tag) : Reader Nat := do
  let b ← byte
  if b < 0x80 then return b.toNat
  else if b = 0x80 then fail .indefiniteLength
  else if 0x84 < b then fail (.badLength tag)
  else
    let size := b.toNat - 0x80
    let n ← (List.range size).foldlM (fun n _ => do return n * 256 + (← byte).toNat) 0
    if maxLength < n then fail .overflow
    if lengthSize n = size + 1 then return n else fail (.badLength tag)

def header : Reader (Tag × Nat) := do
  let tag ← tagOf (← byte)
  return (tag, ← length tag)

/-- **The length of a value that must have the given tag.** -/
def expect (tag : Tag) : Reader Nat := do
  let (actual, n) ← header
  if actual = tag then return n else fail (.unexpectedTag (some tag) actual)

/-- **All of some bytes**, read by `r`. -/
def whole {α : Type} (r : Reader α) (bs : Bytes) : Except Fault α :=
  match (r.run { rest := bs } : _ × Cursor) with
  | (.error fault, _) => .error fault
  | (.ok value, c) => if c.rest.isEmpty then .ok value else .error (leftover c)

end Reader

end TokenForge.Der
