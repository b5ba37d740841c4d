import TokenForge.Pattern.Bracket
import TokenForge.Text.Alphanumeric

/-!
# Well-formed patterns

Whether a text is a pattern that can be matched. It is read from left to right, with the groups that
are open on a stack.

Patterns are read where braces have a meaning of their own, so nothing in them may be counted or
named in braces: an opening brace is well formed in a class and after a backslash only.

* `Branches` — what was read of a group;
* `State` — what was read of a pattern, and `State.step`, one piece more;
* `isPattern` — whether a text is a pattern that can be matched.
-/

namespace TokenForge.Pattern

structure Piece where
  depth : Nat
  /-- Whether it may be repeated; flags may not. -/
  repeats : Bool
  deriving DecidableEq, Repr

/-- **What was read of a group**, or of what is in no group. -/
structure Branches where
  mode : Mode
  /-- How deep the branches before the last one are nested. -/
  earlier : List Nat := []
  /-- The pieces of the last branch, the last one first. -/
  pieces : List Piece := []
  deriving DecidableEq, Repr

namespace Branches

def push (b : Branches) (depth : Nat) (repeats : Bool) : Branches :=
  { b with pieces := { depth := depth, repeats := repeats } :: b.pieces }

def lastDepth (b : Branches) : Nat := nesting (b.pieces.map Piece.depth)

def depth (b : Branches) : Nat := nesting (b.lastDepth :: b.earlier)

/-- The last branch is at its end. -/
def split (b : Branches) : Branches :=
  { b with earlier := b.lastDepth :: b.earlier, pieces := [] }

/-- The last piece is repeated, if there is one that may be. -/
def repeated (b : Branches) : Option Branches :=
  match b.pieces with
  | piece :: before =>
    if piece.repeats then
      some { b with pieces := { depth := piece.depth + 1, repeats := true } :: before }
    else none
  | [] => none

end Branches

/-- **What was read of a pattern.** -/
structure State where
  inner : Branches
  /-- What was read of the groups around it, the innermost first. -/
  outer : List Branches := []
  names : List (List Char) := []
  deriving DecidableEq, Repr

namespace State

/-- The mode in which the pattern is read now. -/
def mode (s : State) : Mode := s.inner.mode

def push (s : State) (depth : Nat) : State := { s with inner := s.inner.push depth true }

/-- An atom more, if it can be matched. -/
def pushAtom (s : State) (atom : Atom) : Option State :=
  if atom.isAllowed s.mode then some (s.push 0) else none

def opened (s : State) (flags : List Char) : State :=
  { s with inner := { mode := s.mode.apply flags }, outer := s.inner :: s.outer }

def closed (s : State) : Option State :=
  match s.outer with
  | [] => none
  | parent :: outer =>
    some { s with inner := parent.push (s.inner.depth + 1) true, outer := outer }

/-! ### Groups -/

def opensName (c : Char) : Bool := c == '_' || Text.isAlphabetic c

/-- Whether the name of a group may go on with a character. -/
def continuesName (c : Char) : Bool :=
  c == '_' || c == '.' || c == '[' || c == ']' || Text.isAlphanumeric c

/-- **A group is opened that has a name**, which an angle bracket ends. No name is given twice. -/
def openNamed (s : State) (text : List Char) : Option (State × List Char) :=
  let name := text.takeWhile (· ≠ '>')
  match name, text.dropWhile (· ≠ '>') with
  | c :: cs, _ :: rest =>
    if opensName c && cs.all continuesName && !s.names.contains name then
      some ({ s.opened [] with names := name :: s.names }, rest)
    else none
  | _, _ => none

/-- **What follows an opening parenthesis.** What stands ahead or behind cannot be asked for. -/
def openGroup (s : State) (text : List Char) : Option (State × List Char) :=
  match s.mode.skip text with
  | '?' :: '=' :: _ | '?' :: '!' :: _ | '?' :: '<' :: '=' :: _ | '?' :: '<' :: '!' :: _ => none
  | '?' :: 'P' :: '<' :: rest | '?' :: '<' :: rest => s.openNamed rest
  | '?' :: rest =>
    match readFlags rest with
    | none => none
    | some (flags, stop, rest) =>
      if stop = ':' then some (s.opened flags, rest)
      else if flags = [] then none
      else
        let inner := { s.inner.push 0 false with mode := s.mode.apply flags }
        some ({ s with inner := inner }, rest)
  | rest => some (s.opened [], rest)

/-! ### Pieces -/

/-- **One piece more of a pattern, and the rest.** -/
def step (s : State) (c : Char) (rest : List Char) : Option (State × List Char) :=
  if c = '(' then s.openGroup rest
  else if c = ')' then s.closed.map fun t => (t, rest)
  else if c = '|' then some ({ s with inner := s.inner.split }, rest)
  else if c = '[' then (readBracket s.mode rest).map fun (depth, rest) => (s.push depth, rest)
  else if c = '?' ∨ c = '*' ∨ c = '+' then
    let rest := if rest.head? = some '?' then rest.drop 1 else rest
    s.inner.repeated.map fun inner => ({ s with inner := inner }, rest)
  else if c = '\x7b' then none
  else if c = '\\' then do
    let (atom, rest) ← readEscape s.mode rest
    return (← s.pushAtom atom, rest)
  else if c = '.' then if s.mode.isWide then some (s.push 0, rest) else none
  else if c = '^' ∨ c = '$' then some (s.push 0, rest)
  else (s.pushAtom (.literal c false)).map fun t => (t, rest)

/-- **The state after a text.** `fuel` bounds the pieces, of which each has a character. -/
def readAll : Nat → State → List Char → Option State
  | 0, _, _ => none
  | fuel + 1, s, text =>
    match s.mode.skip text with
    | [] => some s
    | c :: rest => (s.step c rest).bind fun (t, rest) => readAll fuel t rest

end State

def maxNesting : Nat := 250

/-- **Whether a text is a pattern that can be matched.** -/
def isPattern (text : List Char) : Bool :=
  match State.readAll (text.length + 1) { inner := { mode := {} } } text with
  | none => false
  | some s => s.outer.isEmpty && decide (s.inner.depth ≤ maxNesting)

end TokenForge.Pattern
