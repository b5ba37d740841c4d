import TokenForge.Json.Fault
import TokenForge.Json.Value

/-!
# Reading a JSON number

A numeral is read one character at a time. Its digits are gathered in a significand of 64 bits and
a power of ten; once the next digit would not fit, further digits before the point only raise the
power, and further digits after it are dropped. A numeral with neither point nor exponent whose
significand held every digit is a whole number; all others are binary64 numbers:

* `assemble` — the significand is rounded once, and multiplied or divided once by a rounded power of
  ten. That is not always the binary64 number nearest to the numeral. Powers beyond the table's
  `10 ^ 308` are divided out in steps, and multiply nothing but zero;
* `Numeral.step` — one character more, `stop` when it does not belong to the numeral;
* `Numeral.finish` — the number, if the numeral may end.
-/

namespace TokenForge.Json

/-- How far a numeral has been read. Every state carries the sign; from the first digit on there is
a significand, and a power of ten to multiply it by. -/
inductive Numeral where
  | minus
  /-- After a zero at the front. -/
  | zero (negative : Bool)
  /-- Among the digits before the point, all of them held. -/
  | digits (negative : Bool) (significand : Nat)
  /-- Among the digits before the point, some of them only counted. -/
  | long (negative : Bool) (significand : Nat) (power : Int)
  | point (negative : Bool) (significand : Nat) (power : Int)
  /-- Among the digits after the point. -/
  | fraction (negative : Bool) (significand : Nat) (power : Int)
  /-- Among the digits after the point that are dropped. -/
  | dropped (negative : Bool) (significand : Nat) (power : Int)
  | mark (negative : Bool) (significand : Nat) (power : Int)
  /-- After the sign of the exponent, `down` if it is a minus. -/
  | sign (negative : Bool) (significand : Nat) (power : Int) (down : Bool)
  | exponent (negative : Bool) (significand : Nat) (power : Int) (down : Bool) (value : Nat)
  /-- Among the digits of an exponent so large that the number is a zero. -/
  | vanishing (negative : Bool)
  deriving DecidableEq, Repr

/-- The greatest significand, `2 ^ 64 - 1`. -/
def maxSignificand : Nat := 0xFFFFFFFFFFFFFFFF

/-- The greatest exponent that is read as a number, `2 ^ 31 - 1`. -/
def maxExponent : Nat := 0x7FFFFFFF

/-- The greatest power of ten in the table. -/
def maxPower : Nat := 308

def digit? (c : Char) : Option Nat :=
  if '0' ≤ c ∧ c ≤ '9' then some (c.toNat - '0'.toNat) else none

/-- What became of one more character. -/
inductive Numeral.Step where
  /-- It belongs to the numeral. -/
  | more (next : Numeral)
  /-- It does not, and the numeral ends before it. -/
  | stop
  /-- The numeral cannot be read; the fault is found after this character's first byte. -/
  | fault (cause : Cause)
  deriving DecidableEq, Repr

/-- A character that may open an exponent, and else ends the numeral. -/
def Numeral.markOrStop (negative : Bool) (significand : Nat) (power : Int) (c : Char) : Step :=
  if c = 'e' ∨ c = 'E' then .more (.mark negative significand power) else .stop

/-- A character that may be a point or open an exponent, and else ends the numeral. -/
def Numeral.pointOrStop (negative : Bool) (significand : Nat) (power : Int) (c : Char) : Step :=
  if c = '.' then .more (.point negative significand power)
  else markOrStop negative significand power c

/-- A digit after the point, which is held if it fits. -/
def Numeral.hold (negative : Bool) (significand : Nat) (power : Int) (d : Nat) : Numeral :=
  if significand * 10 + d ≤ maxSignificand then
    .fraction negative (significand * 10 + d) (power - 1)
  else .dropped negative significand power

/-- **One more character of a numeral.** -/
def Numeral.step (n : Numeral) (c : Char) : Step :=
  match n, digit? c with
  | .minus, some 0 => .more (.zero true)
  | .minus, some d => .more (.digits true d)
  | .minus, none => .fault .badNumber
  | .zero _, some _ => .fault .badNumber
  | .zero neg, none => pointOrStop neg 0 0 c
  | .digits neg s, some d =>
    if s * 10 + d ≤ maxSignificand then .more (.digits neg (s * 10 + d))
    else .more (.long neg s 1)
  | .digits neg s, none => pointOrStop neg s 0 c
  | .long neg s p, some _ => .more (.long neg s (p + 1))
  | .long neg s p, none => pointOrStop neg s p c
  | .point neg s p, some d => .more (hold neg s p d)
  | .point _ _ _, none => .fault .badNumber
  | .fraction neg s p, some d => .more (hold neg s p d)
  | .fraction neg s p, none => markOrStop neg s p c
  | .dropped neg s p, some _ => .more (.dropped neg s p)
  | .dropped neg s p, none => markOrStop neg s p c
  | .mark neg s p, some d => .more (.exponent neg s p false d)
  | .mark neg s p, none =>
    if c = '+' then .more (.sign neg s p false)
    else if c = '-' then .more (.sign neg s p true)
    else .fault .badNumber
  | .sign neg s p down, some d => .more (.exponent neg s p down d)
  | .sign _ _ _ _, none => .fault .badNumber
  | .exponent neg s p down e, some d =>
    if e * 10 + d ≤ maxExponent then .more (.exponent neg s p down (e * 10 + d))
    else if s ≠ 0 ∧ !down then .fault .numberOutOfRange
    else .more (.vanishing neg)
  | .exponent _ _ _ _ _, none => .stop
  | .vanishing neg, some _ => .more (.vanishing neg)
  | .vanishing _, none => .stop

-- A zero at the front is a state of its own, as no digit may follow it.
example : Numeral.minus.step '0' = .more (.zero true) := by cbv

/-- `m` divided by `10 ^ power`, by at most `10 ^ 308` at a time and until nothing is left of it. -/
def divideDown (m : Magnitude) (power : Nat) : Option Magnitude :=
  if power ≤ maxPower then do m.div? (← Magnitude.powTen? power)
  else if m.bits = 0 then some m
  else do divideDown (← m.div? (← Magnitude.powTen? maxPower)) (power - maxPower)
termination_by power
decreasing_by simp only [maxPower] at *; omega

/-- **The magnitude of `significand * 10 ^ power` as it is read**; `none` if it is not finite. -/
def assemble (significand : Nat) (power : Int) : Option Magnitude := do
  let m ← Magnitude.ofRatio? significand 1
  if power < 0 then divideDown m power.natAbs
  else if power ≤ maxPower then m.mul? (← Magnitude.powTen? power.toNat)
  else if m.bits = 0 then some m
  else none

/-- A binary64 number, or the fault that it is out of range. -/
def real (negative : Bool) (significand : Nat) (power : Int) : Except Cause Number :=
  (assemble significand power).elim (.error .numberOutOfRange) fun m =>
    .ok (.real { negative := negative, magnitude := m })

/-- **A whole number, if it is in range and not a negative zero**, else the binary64 number. -/
def whole (negative : Bool) (significand : Nat) : Except Cause Number :=
  let n : Int := if negative then -significand else significand
  if negative ∧ significand = 0 then real negative significand 0
  else match Whole.ofInt? n with
    | some w => .ok (.whole w)
    | none => real negative significand 0

/-- **The number that a numeral stands for** when it ends here. -/
def Numeral.finish : Numeral → Except Cause Number
  | .zero neg => whole neg 0
  | .digits neg s => whole neg s
  | .long neg s p => real neg s p
  | .fraction neg s p => real neg s p
  | .dropped neg s p => real neg s p
  | .exponent neg s p down e => real neg s (if down then p - e else p + e)
  | .vanishing neg => .ok (.real { negative := neg, magnitude := .zero })
  | .minus | .point _ _ _ | .mark _ _ _ | .sign _ _ _ _ => .error .endInValue

end TokenForge.Json
