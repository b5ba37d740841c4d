import TokenForge.Json.Numeral

/-!
# Reading JSON text

A machine that takes one character at a time. Its state is what it is in the middle of, with the
arrays and objects that are still open around it as a stack of frames. As the machine never looks
ahead and never goes back, a text is refused at the first character that rules it out, whatever
follows; and a text that is refused only because it ended is a beginning of longer texts.

* `Scan` — the inside of a string, and `Scan.step`, one character of it;
* `Frame` and `Mode` — an open container with the value inside it awaited, and what is being read;
* `State.step` — one character, and `State.finish` — the end of the text;
* `read` — the value of a whole text, or the fault.
-/

namespace TokenForge.Json

/-- The white space between tokens. -/
def isSpace (c : Char) : Bool := c = ' ' || c = '\t' || c = '\n' || c = '\r'

/-- How many arrays and objects may be open at once. -/
def maxDepth : Nat := 127

/-! ### Strings -/

/-- The value of a digit of base 16, in either case. -/
def hexValue? (c : Char) : Option Nat :=
  if '0' ≤ c ∧ c ≤ '9' then some (c.toNat - '0'.toNat)
  else if 'a' ≤ c ∧ c ≤ 'f' then some (c.toNat - 'a'.toNat + 10)
  else if 'A' ≤ c ∧ c ≤ 'F' then some (c.toNat - 'A'.toNat + 10)
  else none

/-- Whether a 16-bit unit is a leading surrogate. -/
def isLeading (n : Nat) : Bool := 0xD800 ≤ n && n ≤ 0xDBFF

/-- Whether a 16-bit unit is a trailing surrogate. -/
def isTrailing (n : Nat) : Bool := 0xDC00 ≤ n && n ≤ 0xDFFF

/-- The character that a leading and a trailing surrogate make. -/
def joinSurrogates (lead trail : Nat) : Char :=
  Char.ofNat (0x10000 + (lead - 0xD800) * 0x400 + (trail - 0xDC00))

/-- What is being read inside a string. -/
inductive Scan where
  | plain
  | escape
  /-- **The four bytes of a unit.** `lead` is the leading surrogate before it, if there is one;
  `bytes` counts the bytes that came, and `value` is theirs unless one was no digit. -/
  | unit (lead : Option Nat) (bytes : Nat) (value : Option Nat)
  /-- The backslash that must follow a leading surrogate. -/
  | pairSlash (lead : Nat)
  /-- The `u` that must follow that backslash. -/
  | pairMark (lead : Nat)
  deriving DecidableEq, Repr

/-- What became of one more character of a string. -/
inductive Scan.Step where
  /-- The string goes on, longer by the given characters. -/
  | more (next : Scan) (read : List Char)
  | close
  /-- The fault is found after so many bytes of the character. -/
  | fault (cause : Cause) (bytes : Nat)

/-- The character that stands after a backslash for the given one. -/
def shortEscape? (c : Char) : Option Char :=
  if c = '"' then some '"'
  else if c = '\\' then some '\\'
  else if c = '/' then some '/'
  else if c = 'b' then some '\x08'
  else if c = 'f' then some '\x0c'
  else if c = 'n' then some '\x0a'
  else if c = 'r' then some '\x0d'
  else if c = 't' then some '\x09'
  else none

/-- **What the unit `n` makes**, after the leading surrogate `lead` if there is one. -/
def finishUnit (lead : Option Nat) (n : Nat) : Scan.Step :=
  match lead with
  | none =>
    if isTrailing n then .fault .loneSurrogate 1
    else if isLeading n then .more (.pairSlash n) []
    else .more .plain [Char.ofNat n]
  | some l =>
    if isTrailing n then .more .plain [joinSurrogates l n] else .fault .loneSurrogate 1

/-- **One character of a unit.** Four bytes are taken before any of them is looked at, so a fault is
found after the fourth, be it in the middle of a character. -/
def unitStep (lead : Option Nat) (bytes : Nat) (value : Option Nat) (c : Char) : Scan.Step :=
  let next := do return (← value) * 16 + (← hexValue? c)
  if bytes + c.utf8Size < 4 then .more (.unit lead (bytes + c.utf8Size) next) []
  else match next with
    | some n => finishUnit lead n
    | none => .fault .badEscape (4 - bytes)

/-- **One more character of a string.** -/
def Scan.step (scan : Scan) (c : Char) : Step :=
  match scan with
  | .plain =>
    if c = '"' then .close
    else if c = '\\' then .more .escape []
    else if c.toNat < 0x20 then .fault .controlInString 1
    else .more .plain [c]
  | .escape =>
    if c = 'u' then .more (.unit none 0 (some 0)) []
    else match shortEscape? c with
      | some d => .more .plain [d]
      | none => .fault .badEscape 1
  | .unit lead bytes value => unitStep lead bytes value c
  | .pairSlash lead => if c = '\\' then .more (.pairMark lead) [] else .fault .brokenPair 1
  | .pairMark lead =>
    if c = 'u' then .more (.unit (some lead) 0 (some 0)) [] else .fault .brokenPair 1

/-! ### Values -/

/-- An array or object with a value inside it being read. -/
inductive Frame where
  /-- An array; its items so far, last first. -/
  | array (items : List Value)
  /-- An object; its members so far, and the key whose value is being read. -/
  | object (members : Members) (key : String)

inductive Mode where
  | value
  | firstItem
  /-- What comes after an item; the items so far, last first. -/
  | afterItem (items : List Value)
  | nextItem (items : List Value)
  | firstKey
  | afterMember (members : Members)
  | nextKey (members : Members)
  /-- The inside of a key; its characters so far, last first. -/
  | key (members : Members) (scan : Scan) (read : List Char)
  | colon (members : Members) (key : String)
  | string (scan : Scan) (read : List Char)
  | number (numeral : Numeral)
  /-- A word that stands for a value; the character that must come, and those after it. -/
  | word (next : Char) (rest : List Char) (value : Value)
  | done (value : Value)

/-- What is being read, and the containers open around it, innermost first. -/
structure State where
  mode : Mode
  stack : List Frame

/-- A cause, and how many bytes of the character at hand come before the fault. -/
abbrev Refusal := Cause × Nat

def State.start : State := { mode := .value, stack := [] }

/-- **A value is complete**: it goes into the container that waits for it. -/
def State.complete (v : Value) : List Frame → State
  | [] => { mode := .done v, stack := [] }
  | .array items :: rest => { mode := .afterItem (v :: items), stack := rest }
  | .object members key :: rest => { mode := .afterMember (put key v members), stack := rest }

/-- **A value begins** with the character `c`, which is not white space. -/
def State.begin (c : Char) (stack : List Frame) : Except Refusal State :=
  if c = 'n' then .ok { mode := .word 'u' ['l', 'l'] .null, stack := stack }
  else if c = 't' then .ok { mode := .word 'r' ['u', 'e'] (.bool true), stack := stack }
  else if c = 'f' then .ok { mode := .word 'a' ['l', 's', 'e'] (.bool false), stack := stack }
  else if c = '"' then .ok { mode := .string .plain [], stack := stack }
  else if c = '-' then .ok { mode := .number .minus, stack := stack }
  else if c = '[' then
    if stack.length < maxDepth then .ok { mode := .firstItem, stack := stack }
    else .error (.tooDeep, 1)
  else if c = '\x7b' then
    if stack.length < maxDepth then .ok { mode := .firstKey, stack := stack }
    else .error (.tooDeep, 1)
  else match digit? c with
    | some 0 => .ok { mode := .number (.zero false), stack := stack }
    | some d => .ok { mode := .number (.digits false d), stack := stack }
    | none => .error (.noValue, 1)

/-- **One character after a complete value**, or between the tokens of a container. -/
def State.between (mode : Mode) (stack : List Frame) (c : Char) : Except Refusal State :=
  if isSpace c then .ok { mode := mode, stack := stack }
  else match mode with
    | .done _ => .error (.trailingText, 1)
    | .afterItem items =>
      if c = ']' then .ok (.complete (.array items.reverse) stack)
      else if c = ',' then .ok { mode := .nextItem items, stack := stack }
      else .error (.noItemEnd, 1)
    | .afterMember members =>
      if c = '\x7d' then .ok (.complete (.object members) stack)
      else if c = ',' then .ok { mode := .nextKey members, stack := stack }
      else .error (.noMemberEnd, 1)
    | .firstItem =>
      if c = ']' then .ok (.complete (.array []) stack) else State.begin c (.array [] :: stack)
    | .nextItem items =>
      if c = ']' then .error (.trailingComma, 1) else State.begin c (.array items :: stack)
    | .firstKey =>
      if c = '\x7d' then .ok (.complete (.object []) stack)
      else if c = '"' then .ok { mode := .key [] .plain [], stack := stack }
      else .error (.keyNotString, 1)
    | .nextKey members =>
      if c = '"' then .ok { mode := .key members .plain [], stack := stack }
      else if c = '\x7d' then .error (.trailingComma, 1)
      else .error (.keyNotString, 1)
    | .colon members key =>
      if c = ':' then .ok { mode := .value, stack := .object members key :: stack }
      else .error (.noColon, 1)
    | _ => State.begin c stack

/-- **One character.** A number ends at the first character that does not belong to it, which is
then read after the complete number. -/
def State.step (s : State) (c : Char) : Except Refusal State :=
  match s.mode with
  | .string scan read =>
    match scan.step c with
    | .more next cs => .ok { s with mode := .string next (cs.reverse ++ read) }
    | .close => .ok (.complete (.string (String.ofList read.reverse)) s.stack)
    | .fault cause bytes => .error (cause, bytes)
  | .key members scan read =>
    match scan.step c with
    | .more next cs => .ok { s with mode := .key members next (cs.reverse ++ read) }
    | .close => .ok { s with mode := .colon members (String.ofList read.reverse) }
    | .fault cause bytes => .error (cause, bytes)
  | .word next rest v =>
    if c ≠ next then .error (.badWord, 1)
    else match rest with
      | [] => .ok (.complete v s.stack)
      | d :: ds => .ok { s with mode := .word d ds v }
  | .number numeral =>
    match numeral.step c with
    | .more next => .ok { s with mode := .number next }
    | .fault cause => .error (cause, 1)
    | .stop =>
      match numeral.finish with
      | .ok n =>
        let t := State.complete (.number n) s.stack
        State.between t.mode t.stack c
      | .error cause => .error (cause, 0)
  | mode => State.between mode s.stack c

-- The comma ends the number, and it is read as what comes after an item.
example : State.step { mode := .number (.zero false), stack := [.array []] } ',' =
    .ok { mode := .nextItem [.ofWhole { val := 0 }], stack := [] } := by cbv

/-- The cause for which a text may not end where nothing but white space was to come. -/
def Mode.ended : Mode → Except Cause Value
  | .done v => .ok v
  | .firstItem | .afterItem _ => .error .endInArray
  | .firstKey | .afterMember _ | .colon _ _ => .error .endInObject
  | .string _ _ | .key _ _ _ => .error .endInString
  | .value | .nextItem _ | .nextKey _ | .number _ | .word _ _ _ => .error .endInValue

/-- **The end of the text.** A number that is being read is complete here, if it may be. -/
def State.finish (s : State) : Except Cause Value :=
  match s.mode with
  | .number numeral => do
    let n ← numeral.finish
    (State.complete (.number n) s.stack).mode.ended
  | mode => mode.ended

/-- **The rest of a text read from a state**, which was reached at the given place. -/
def State.run (s : State) (place : Place) : List Char → Except Fault Value
  | [] => s.finish.mapError fun cause => { cause := cause, place := place }
  | c :: cs =>
    match s.step c with
    | .ok t => t.run (place.after c) cs
    | .error (cause, bytes) => .error { cause := cause, place := place.within c bytes }

/-- **The value of a JSON text.** -/
def read (text : String) : Except Fault Value := State.start.run {} text.toList

end TokenForge.Json
