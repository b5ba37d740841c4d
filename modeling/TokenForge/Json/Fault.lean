/-!
# Faults in JSON text

Why a text is no JSON text, and where. A place is a line and a column; lines are numbered from one
and columns count the bytes since the last line feed, so that the first byte of a line ends at
column one.

* `Cause` — what was wrong, and `Cause.message`, its wording;
* `Place.after` — the place after a character, and `Place.within`, the place inside one;
* `Fault.message` — a cause and its place.
-/

namespace TokenForge.Json

/-- What is wrong with a text. -/
inductive Cause where
  | endInArray
  | endInObject
  | endInString
  /-- The text ends where a value should come, or inside one. -/
  | endInValue
  /-- A key is not followed by a colon. -/
  | noColon
  /-- An item is followed by neither a comma nor a closing bracket. -/
  | noItemEnd
  /-- A member is followed by neither a comma nor a closing brace. -/
  | noMemberEnd
  /-- A word begins like `true`, `false` or `null` and goes on otherwise. -/
  | badWord
  | noValue
  | badEscape
  | badNumber
  /-- The nearest binary64 number is not finite. -/
  | numberOutOfRange
  | controlInString
  | keyNotString
  /-- A surrogate escape stands without its partner. -/
  | loneSurrogate
  /-- A comma is followed by a closing bracket or brace. -/
  | trailingComma
  | trailingText
  /-- No escape follows the escape of a leading surrogate. -/
  | brokenPair
  | tooDeep
  deriving DecidableEq, Repr

def Cause.message : Cause → String
  | .endInArray => "EOF while parsing a list"
  | .endInObject => "EOF while parsing an object"
  | .endInString => "EOF while parsing a string"
  | .endInValue => "EOF while parsing a value"
  | .noColon => "expected `:`"
  | .noItemEnd => "expected `,` or `]`"
  | .noMemberEnd => "expected `,` or `\x7d`"
  | .badWord => "expected ident"
  | .noValue => "expected value"
  | .badEscape => "invalid escape"
  | .badNumber => "invalid number"
  | .numberOutOfRange => "number out of range"
  | .controlInString => "control character (\\u0000-\\u001F) found while parsing a string"
  | .keyNotString => "key must be a string"
  | .loneSurrogate => "lone leading surrogate in hex escape"
  | .trailingComma => "trailing comma"
  | .trailingText => "trailing characters"
  | .brokenPair => "unexpected end of hex escape"
  | .tooDeep => "recursion limit exceeded"

/-- Whether the cause is that the text came to its end. -/
def Cause.isEnd : Cause → Bool
  | .endInArray | .endInObject | .endInString | .endInValue => true
  | _ => false

/-- A place in a text: between two bytes of it. -/
structure Place where
  /-- One more than the number of line feeds before the place. -/
  line : Nat := 1
  /-- The number of bytes since the last line feed before the place. -/
  column : Nat := 0
  deriving DecidableEq, Repr

/-- **The place after the first `bytes` bytes of the character `c`**, which begins at this place. -/
def Place.within (p : Place) (c : Char) (bytes : Nat) : Place :=
  if bytes = 0 then p
  else if c = '\n' then { line := p.line + 1, column := 0 }
  else { p with column := p.column + bytes }

/-- The place after the character `c`, which begins at this place. -/
def Place.after (p : Place) (c : Char) : Place := p.within c c.utf8Size

structure Fault where
  cause : Cause
  /-- Where the reader stood. -/
  place : Place
  deriving DecidableEq, Repr

def Fault.message (f : Fault) : String :=
  f.cause.message ++ " at line " ++ toString f.place.line ++ " column " ++ toString f.place.column

end TokenForge.Json
