import TokenForge.Text.Lines

/-!
# Modes of a pattern

A pattern is a regular expression. Flags in it say how it is read from there on, up to the end of
the group they stand in.

* `Mode` — what flags can change, as far as it bears on whether a pattern is well formed;
* `Mode.skip` — a text after the blanks and comments that do not count;
* `readFlags` — flags up to a colon or a closing parenthesis.
-/

namespace TokenForge.Pattern

/-- **How a pattern is read** from some place on. -/
structure Mode where
  /-- Whether blanks and comments are skipped. -/
  isSpaced : Bool := false
  /-- Whether it matches characters; otherwise it matches bytes. -/
  isWide : Bool := true
  /-- Whether the case of letters makes no difference. -/
  ignoresCase : Bool := false
  deriving DecidableEq, Repr

/-- A text after its blanks and comments. It may begin in a comment, which ends with its line. -/
def skipFrom (inComment : Bool) : List Char → List Char
  | [] => []
  | c :: cs =>
    if inComment then skipFrom (c ≠ '\n') cs
    else if Text.isBlank c then skipFrom false cs
    else if c = '#' then skipFrom true cs
    else c :: cs

/-- **A text after what is skipped.** -/
def Mode.skip (m : Mode) (text : List Char) : List Char :=
  if m.isSpaced then skipFrom false text else text

/-! ### Flags -/

/-- The letters for flags, and the dash, after which flags are cleared. -/
def flagChars : List Char := ['i', 'm', 's', 'U', 'u', 'R', 'x', '-']

/-- What becomes of the flag `c` under some flags. -/
def setting (flags : List Char) (c : Char) (before : Bool) : Bool :=
  if (flags.takeWhile (· ≠ '-')).contains c then true
  else before && !(flags.dropWhile (· ≠ '-')).contains c

def Mode.apply (m : Mode) (flags : List Char) : Mode where
  isSpaced := setting flags 'x' m.isSpaced
  isWide := setting flags 'u' m.isWide
  ignoresCase := setting flags 'i' m.ignoresCase

/-- **Some flags, the character that ends them, and the rest.** No flag stands twice, and a dash is
followed by a flag. -/
def readFlags (text : List Char) : Option (List Char × Char × List Char) :=
  let isFlag (c : Char) : Bool := c ≠ ':' && c ≠ ')'
  let flags := text.takeWhile isFlag
  match text.dropWhile isFlag with
  | [] => none
  | c :: rest =>
    if flags.all flagChars.contains ∧ flags.Nodup ∧ flags.getLast? ≠ some '-' then
      some (flags, c, rest)
    else none

end TokenForge.Pattern
