import TokenForge.Number.Text

/-!
# Log events

What the program reports while it works. An event belongs to a part of the program, whose name a
filter may ask for, and has a level, a message and fields.

* `Level` — how much an event matters, and `Level.admits`, which events a limit lets through;
* `Event` — an event, and `Event.line`, the line that shows it after a time stamp.
-/

namespace TokenForge.Log

/-- How much an event matters, from the most to the least. -/
inductive Level where
  | error
  | warn
  | info
  | debug
  | trace
  deriving DecidableEq, Repr

namespace Level

/-- The place of a level among all, from one on. -/
def rank : Level → Nat
  | .error => 1
  | .warn => 2
  | .info => 3
  | .debug => 4
  | .trace => 5

/-- The name of a level, in five columns. -/
def column : Level → String
  | .error => "ERROR"
  | .warn => " WARN"
  | .info => " INFO"
  | .debug => "DEBUG"
  | .trace => "TRACE"

/-- **Whether a limit lets a level through.** No limit at all lets nothing through. -/
def admits (limit : Option Level) (level : Level) : Bool :=
  match limit with
  | none => false
  | some l => decide (level.rank ≤ l.rank)

end Level

structure Event where
  level : Level
  /-- The name of the part of the program that it comes from. -/
  target : String
  message : String
  /-- The names of its fields with their texts. -/
  fields : List (String × String)
  deriving DecidableEq, Repr

namespace Event

/-- The name under which a filter finds the message among the fields. -/
def messageField : String := "message"

/-- The names of all fields, the message among them. -/
def fieldNames (e : Event) : List String := messageField :: e.fields.map Prod.fst

/-- **The line of an event**, in plain text. This is the form for an environment in which `NO_COLOR`
is set to a value that is not empty; that every environment is one is assumed wherever lines are
shown. In any other, escape sequences for colours stand around the parts of the line. -/
def line (stamp : String) (e : Event) : String :=
  stamp ++ " " ++ e.level.column ++ " " ++ e.message
    ++ String.join (e.fields.map fun f => " " ++ f.1 ++ "=" ++ f.2) ++ "\n"

end Event

def count (n : Nat) : String := String.ofList (natDigits n)

end TokenForge.Log
