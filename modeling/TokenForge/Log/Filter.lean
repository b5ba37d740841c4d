import TokenForge.Log.Event
import TokenForge.Pattern.Reader

/-!
# Filters of log events

A filter is a text of directives, parted by commas; each says up to which level some events are
shown. A directive is a level (`info`), a target (`part`), or both (`part=info`), and between them
it may ask for a field of the event (`part[{name}]=info`), or for a field with a value, which is a
number or a pattern (`part[{name=value}]=info`).

* `readLevel` — the limit that a text names;
* `isValue` — whether a text may be asked for as a value;
* `Directive.read` — the directive of a text;
* `Filter.read` — the filter of a text, `Filter.ofVariable` — that of a variable's value;
* `Filter.shows` — whether a filter lets an event through: the most specific directive decides.
-/

namespace TokenForge.Log

/-! ### Limits -/

/-- The limits by number and by name; `none` lets nothing through. -/
def limits : List (String × Option Level) :=
  [("off", none), ("error", some .error), ("warn", some .warn), ("info", some .info),
    ("debug", some .debug), ("trace", some .trace)]

/-- The number that a text spells; a plus sign may stand in front. -/
def readNumber? (cs : List Char) : Option Nat :=
  let digits := if cs.head? = some '+' then cs.drop 1 else cs
  if digits ≠ [] ∧ digits.all Char.isDigit then
    some (digits.foldl (fun n d => n * 10 + (d.toNat - '0'.toNat)) 0)
  else none

/-- **The limit that a text names**, by its number or by its name in any case of letters. -/
def readLevel (cs : List Char) : Option (Option Level) :=
  match readNumber? cs with
  | some n => (limits[n]?).map Prod.snd
  | none => (limits.find? fun l => l.1.toList = cs.map Char.toLower).map Prod.snd

/-! ### Values -/

/-- Whether a text is nothing, or an exponent. -/
def isExponent : List Char → Bool
  | [] => true
  | e :: rest =>
    let digits := if rest.head? = some '+' ∨ rest.head? = some '-' then rest.drop 1 else rest
    (e == 'e' || e == 'E') && !digits.isEmpty && digits.all Char.isDigit

/-- Whether a text is a number in base 10, perhaps with a point and an exponent. -/
def isDecimal (text : List Char) : Bool :=
  let whole := text.takeWhile Char.isDigit
  match text.dropWhile Char.isDigit with
  | '.' :: rest =>
    !(whole.isEmpty && (rest.takeWhile Char.isDigit).isEmpty)
      && isExponent (rest.dropWhile Char.isDigit)
  | rest => !whole.isEmpty && isExponent rest

/-- Whether a text is a number with a plus sign, infinity and the lack of a number among them. -/
def isPositive (text : List Char) : Bool :=
  match text with
  | '+' :: number =>
    isDecimal number
      || ["inf", "infinity", "nan"].any fun name => name.toList = number.map Char.toLower
  | _ => false

/-- **Whether a text may be asked for as a value**: a number or a pattern. Only a number with a plus
sign is no pattern. -/
def isValue (text : List Char) : Bool := isPositive text || Pattern.isPattern text

/-! ### Directives -/

structure Directive where
  /-- What the target of an event must begin with. -/
  target : Option (List Char)
  /-- Whether it is about spans only, as it names one or asks for a value. No event is in a span, so
  such a directive concerns none. -/
  inSpan : Bool
  /-- The name of a field that an event must have. -/
  field : Option (List Char)
  limit : Option Level
  deriving DecidableEq, Repr

namespace Directive

/-- What stands in a text from the place `a` up to the place `b`. -/
def cut (text : List Char) (a b : Nat) : List Char := (text.drop a).take (b - a)

/-- The first place, from `start` on, where one of some characters stands, and that character. -/
def next? (stops text : List Char) (start : Nat) : Option (Nat × Char) := do
  let i ← (text.drop start).findIdx? stops.contains
  let c ← text[start + i]?
  return (start + i, c)

/-- A text without the white space around it. -/
def trim (text : List Char) : List Char :=
  (((text.dropWhile Text.isBlank).reverse).dropWhile Text.isBlank).reverse

/-- Whether a target may begin with this character. -/
def opensTarget (c : Char) : Bool :=
  c == '-' || c == ':' || c == '_' || Text.isAlphanumeric c

/-- The directive of one word: a level, or else a target of which everything is shown. -/
def ofWord (word : List Char) : Directive :=
  match readLevel word with
  | some limit => { target := none, inSpan := false, field := none, limit := limit }
  | none => { target := some word, inSpan := false, field := none, limit := some .trace }

/-- A directive with the limit that a text names; no text is no limit. -/
def withLimit (d : Directive) (text : List Char) : Option Directive :=
  if text = [] then some d else (readLevel text).map fun limit => { d with limit := limit }

/-- **What follows the brackets**: nothing, or an equals sign and a limit. `text` is the directive,
and `walked` the same without the white space around it, in which places are counted. -/
def afterBrackets (text walked : List Char) (d : Directive) (place : Nat) : Option Directive :=
  match walked[place]? with
  | none => some d
  | some '=' => d.withLimit (text.drop (place + 1))
  | some _ => none

/-- **The name of a field, and whether a value is asked for**, from what stands in the braces. The
value ends before a second equals sign. -/
def fieldOf (text : List Char) : Option (List Char × Bool) :=
  let isPart (c : Char) : Bool := c ≠ '='
  match text.dropWhile isPart with
  | _ :: value =>
    if isValue (value.takeWhile isPart) then some (text.takeWhile isPart, true) else none
  | [] => if text = [] then none else some (text, false)

/-- **What stands in the brackets**: a span, and perhaps a field in braces. -/
def brackets (text walked : List Char) (target : Option (List Char)) (place : Nat) :
    Option Directive := do
  let (j, c) ← next? [']', '\x7b'] walked place
  if c = ']' then
    afterBrackets text walked
      { target := target, inSpan := true, field := none, limit := some .trace } (j + 1)
  else
    let (k, _) ← next? ['\x7d'] walked (j + 1)
    let (field, hasValue) ← fieldOf (cut text (j + 1) k)
    if walked[k + 1]? ≠ some ']' then none
    else
      afterBrackets text walked
        { target := target, inSpan := cut text place j ≠ [] || hasValue
          field := some field, limit := some .trace } (k + 2)

/-- **The directive of a text.** The parts are found in the text without the white space around it,
and cut at the same places out of the text as it was given. -/
def read (text : List Char) : Option Directive :=
  let walked := trim text
  match walked with
  | [] => none
  | '[' :: _ => brackets text walked none 1
  | c :: _ =>
    if opensTarget c then
      match next? ['=', '['] walked 0 with
      | none => some (ofWord text)
      | some (i, stop) =>
        let target := some (cut text 0 i)
        if stop = '=' then
          withLimit { target := target, inSpan := false, field := none, limit := some .trace }
            (text.drop (i + 1))
        else brackets text walked target (i + 1)
    else none

/-- Whether a directive says something about an event. -/
def concerns (d : Directive) (e : Event) : Bool :=
  !d.inSpan
    && (match d.target with
      | none => true
      | some target => target.isPrefixOf e.target.toList)
    && (match d.field with
      | none => true
      | some field => e.fieldNames.any fun name => name.toList = field)

/-- **How specific a directive is**: first by the length of its target, then by whether it asks for
a field; what is left only keeps directives apart. -/
def weight (d : Directive) : List Nat :=
  let target := Utf8.encode (d.target.getD [])
  (if d.target.isSome then target.length + 1 else 0) :: d.field.toList.length
    :: (target ++ Utf8.encode (d.field.getD [])).map UInt8.toNat

end Directive

/-! ### Filters -/

abbrev Filter := List Directive

namespace Filter

/-- The filter where none is given: nothing below a warning is shown. -/
def usual : Filter := [{ target := none, inSpan := false, field := none, limit := some .warn }]

/-- **The filter of a text.** Between two commas there may be nothing, but one bad directive spoils
them all. -/
def read (text : String) : Option Filter :=
  ((text.toList.splitOn ',').filter fun part => !part.isEmpty).mapM Directive.read

def ofVariable (value : Option Bytes) : Filter := ((value.bind text?).bind read).getD usual

/-- The more specific of two directives; of two alike, the later. -/
def stronger (best : Option Directive) (d : Directive) : Option Directive :=
  match best with
  | none => some d
  | some b => if d.weight < b.weight then some b else some d

/-- **Whether a filter lets an event through.** -/
def shows (f : Filter) (e : Event) : Bool :=
  match (f.filter (·.concerns e)).foldl stronger none with
  | none => false
  | some d => Level.admits d.limit e.level

end Filter

end TokenForge.Log
