import TokenForge.Pattern.Escape

/-!
# Classes in brackets

A class is a set of characters, given by its members, by ranges and by other classes, and perhaps
negated. A double mark `&&`, `--` or `~~` makes one class of two.

* `nesting` — how deep some things in a row are nested;
* `Bracket` — a class of which the end has not come;
* `readBracket` — the nesting of a class, and the rest.
-/

namespace TokenForge.Pattern

/-- **How deep some things in a row are nested**, given how deep each is. A row is one level deeper
than the deepest thing in it, but one thing alone is no row. -/
def nesting : List Nat → Nat
  | [] => 0
  | [n] => n
  | ns => ns.foldl max 0 + 1

/-! ### Members -/

/-- Whether an atom may be a member of a class. -/
def Atom.isMember (m : Mode) : Atom → Bool
  | .literal c _ => if m.isWide then !m.ignoresCase else c.toNat < 0x80
  | .place _ => false
  | atom => atom.isAllowed m

def readMember (m : Mode) : List Char → Option (Atom × List Char)
  | [] => none
  | '\\' :: rest => readEscape m rest
  | c :: rest => some (.literal c false, rest)

/-- The character after a dash that decides whether the dash makes a range. One sign of a comment is
skipped with the blanks. -/
def afterDash? (m : Mode) (text : List Char) : Option Char :=
  let visible := text.dropWhile Text.isBlank
  let found := match visible with
    | '#' :: rest => (rest.dropWhile Text.isBlank).head?
    | _ => visible.head?
  if m.isSpaced then found.or text.head? else text.head?

/-- **A member or a range, and the rest.** A range goes from one character to a later one. -/
def readRange (m : Mode) (text : List Char) : Option (List Char) := do
  let (first, rest) ← readMember m text
  if !first.isMember m then none
  match m.skip rest with
  | [] => none
  | '-' :: rest =>
    if [some ']', some '-'].contains (afterDash? m rest) then some ('-' :: rest)
    else
      let (last, rest) ← readMember m (m.skip rest)
      match first, last with
      | .literal a _, .literal b _ => if a ≤ b ∧ last.isMember m then some rest else none
      | _, _ => none
  | rest => some rest

/-- The names of classes of ASCII. -/
def asciiNames : List String :=
  ["alnum", "alpha", "ascii", "blank", "cntrl", "digit", "graph", "lower", "print", "punct",
    "space", "upper", "word", "xdigit"]

/-- **The class of ASCII that is named at the front**, after a bracket and up to one: whether it is
negated, and the rest. -/
def readAscii? (text : List Char) : Option (Bool × List Char) :=
  match text with
  | ':' :: rest =>
    let isNegated := rest.head? = some '^'
    let rest := if isNegated then rest.drop 1 else rest
    let name := rest.takeWhile (· ≠ ':')
    match rest.dropWhile (· ≠ ':') with
    | ':' :: ']' :: rest =>
      if asciiNames.contains (String.ofList name) then some (isNegated, rest) else none
    | _ => none
  | _ => none

/-- Whether a class of ASCII can be matched. -/
def isAsciiAllowed (m : Mode) (isNegated : Bool) : Bool :=
  if m.isWide then !m.ignoresCase else !isNegated

/-! ### Classes -/

/-- **A class of which the end has not come.** -/
structure Bracket where
  /-- Whether only dashes were read of it; more of them, or a closing bracket, are members then. -/
  isFresh : Bool := true
  /-- How deep the members are nested, the last one first. -/
  members : List Nat := []
  /-- How deep what stands before the last double mark is nested. -/
  left : Option Nat := none
  deriving DecidableEq, Repr

namespace Bracket

def push (b : Bracket) (depth : Nat) : Bracket :=
  { b with isFresh := false, members := depth :: b.members }

/-- How deep the class is nested, without its brackets. -/
def depth (b : Bracket) : Nat :=
  match b.left with
  | none => nesting b.members
  | some n => max n (nesting b.members) + 1

def split (b : Bracket) : Bracket := { isFresh := false, left := some b.depth }

/-- **The class that begins after an opening bracket, and the rest.** A negated class of bytes could
match a part of a character. -/
def opened (m : Mode) (text : List Char) : Option (Bracket × List Char) :=
  match m.skip text with
  | '^' :: rest => if m.isWide then some ({}, rest) else none
  | rest => some ({}, rest)

end Bracket

/-- The marks that make one class of two if they are doubled. -/
def doubleMarks : List Char := ['&', '-', '~']

/-- **The nesting of the outermost of some classes, and the rest.** `b` is the innermost of them and
`outer` are those around it; `fuel` bounds the steps, of which each reads a character. -/
def readBrackets (m : Mode) : Nat → Bracket → List Bracket → List Char → Option (Nat × List Char)
  | 0, _, _, _ => none
  | fuel + 1, b, outer, text =>
    let next := readBrackets m fuel
    match m.skip text with
    | [] => none
    | c :: rest =>
      let isLiteral := b.isFresh && (c == '-' || (c == ']' && b.members.isEmpty))
      if isLiteral then
        if (Atom.literal c false).isMember m then
          next { b.push 0 with isFresh := c == '-' } outer rest
        else none
      else if c = ']' then
        match outer with
        | [] => some (b.depth + 1, rest)
        | parent :: outer => next (parent.push (b.depth + 1)) outer rest
      else if c = '[' then
        match readAscii? rest with
        | some (isNegated, rest) =>
          if isAsciiAllowed m isNegated then next (b.push 0) outer rest else none
        | none => (Bracket.opened m rest).bind fun (inner, rest) => next inner (b :: outer) rest
      else if doubleMarks.contains c ∧ rest.head? = some c then
        next b.split outer (rest.drop 1)
      else (readRange m (c :: rest)).bind fun rest => next (b.push 0) outer rest

/-- **The nesting of the class after an opening bracket, and the rest.** -/
def readBracket (m : Mode) (text : List Char) : Option (Nat × List Char) :=
  (Bracket.opened m text).bind fun (b, rest) => readBrackets m (rest.length + 1) b [] rest

end TokenForge.Pattern
