import TokenForge.Number.Binary64

/-!
# JSON values

A JSON value as it is kept between reading and writing. Objects keep their members in the order in
which the keys first came, and hold each key once.

* `Whole` — an integer that fits in 64 bits, signed or not;
* `Number` — a whole number, or a binary64 one for all that no whole number holds;
* `Value` — the six kinds of value;
* `put` — a member added to an object: a known key keeps its place and takes the new value.
-/

namespace TokenForge.Json

/-- An integer from `-2 ^ 63` up to but not including `2 ^ 64`. -/
structure Whole where
  val : Int
  low : -0x8000000000000000 ≤ val := by decide
  high : val < 0x10000000000000000 := by decide
  deriving DecidableEq, Repr

/-- The integer as a number kept exactly, if it is in range. -/
def Whole.ofInt? (n : Int) : Option Whole :=
  if h : -0x8000000000000000 ≤ n ∧ n < 0x10000000000000000 then
    some { val := n, low := h.1, high := h.2 }
  else none

inductive Number where
  | whole (n : Whole)
  /-- A number with a fraction or an exponent, an integer out of range, or `-0`. -/
  | real (x : Binary64)
  deriving DecidableEq, Repr

inductive Value where
  | null
  | bool (b : Bool)
  | number (n : Number)
  | string (s : String)
  | array (items : List Value)
  /-- An object, its members in the order of their keys' first appearance. -/
  | object (members : List (String × Value))
  deriving BEq, Repr, Inhabited

/-- The members of an object, in order. -/
abbrev Members := List (String × Value)

/-- **A member put into an object.** A key that is there keeps its place. -/
def put (key : String) (value : Value) : Members → Members
  | [] => [(key, value)]
  | (k, v) :: rest => if k = key then (key, value) :: rest else (k, v) :: put key value rest

/-- The name of the kind of a value. -/
def Value.kind : Value → String
  | .null => "null"
  | .bool _ => "boolean"
  | .number _ => "number"
  | .string _ => "string"
  | .array _ => "array"
  | .object _ => "object"

def Value.isObject : Value → Bool
  | .object _ => true
  | _ => false

/-- An integer given in the program text. -/
def Value.ofWhole (n : Whole) : Value := .number (.whole n)

end TokenForge.Json
