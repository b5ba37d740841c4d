import TokenForge.Cli.Arguments
import TokenForge.Cli.Fault
import TokenForge.Cli.Similarity

/-!
# Reading a command line

The words of a command line are read from left to right. The first one chooses a command, and the
others are its options, in any order. An option and its value are one word with an equals sign
between them, or two words; of two, the second must not begin with a dash.

* `Word.of` — what a word looks like;
* `State` — what was read of a command's words, and `State.step`, one word more;
* `read` — the arguments that a command line makes, or the `Halt` at which reading ended.
-/

namespace TokenForge.Cli

/-! ### Words -/

/-- What a word looks like. -/
inductive Word where
  /-- Two dashes alone, after which no word is an option. -/
  | dashes
  /-- Two dashes, a name, and perhaps an equals sign and a value. -/
  | long (name : Bytes) (value : Option Bytes)
  | short (letters : Bytes)
  /-- Any other word; a dash alone is one. -/
  | plain
  deriving DecidableEq, Repr

def dash : UInt8 := 0x2D

def equalsSign : UInt8 := 0x3D

/-- What a word with two dashes looks like, given what follows them. -/
def Word.ofLong (rest : Bytes) : Word :=
  if rest = [] then .dashes
  else
    let value := match rest.dropWhile (· ≠ equalsSign) with
      | [] => none
      | _ :: v => some v
    .long (rest.takeWhile (· ≠ equalsSign)) value

/-- **What a word looks like.** -/
def Word.of : Bytes → Word
  | a :: b :: rest =>
    if a ≠ dash then .plain
    else if b = dash then .ofLong rest
    else .short (b :: rest)
  | _ => .plain

/-- Bytes as they are shown in a diagnostic. -/
def shown (bytes : Bytes) : String := String.ofList (Utf8.lossy bytes)

/-! ### Ends -/

/-- Why a command line makes no arguments. -/
inductive Halt where
  | help (scope : Scope) (isFull : Bool)
  | version
  | noCommand
  | misuse (m : Misuse)
  deriving DecidableEq, Repr

def Switch.halt (scope : Scope) : Switch → Halt
  | .version => .version
  | _ => .help scope true

/-! ### Hints -/

/-- The switch of a scope whose name is most like `name`, if one is like it at all. -/
def Scope.nearest? (scope : Scope) (name : String) : Option Switch := do
  let best ← (Similarity.similar name (scope.switches.map Switch.long)).getLast?
  scope.switches.find? fun s => s.long = best

/-- **The hint for an unknown name.** If no switch of the scope is like it, one of a command that
follows may be; of two such commands the first counts. -/
def Scope.tip? (scope : Scope) (name : String) (following : List Bytes) : Option Tip :=
  match scope.nearest? name with
  | some s => some (.switch s)
  | none =>
    if scope = .program then
      following.findSome? fun w =>
        (Command.all.find? fun c => utf8 c.name = w).bind fun c =>
          ((Scope.command c).nearest? name).map (.switchOf c)
    else none

/-- **The misuse of an unknown long name.** A switch that is hinted at counts as used. -/
def unknownLong (scope : Scope) (used : List Switch) (name : Bytes) (following : List Bytes) :
    Misuse :=
  let tip := scope.tip? (shown name) following
  let used := match tip with
    | some (.switch s) => if used.contains s then used else used ++ [s]
    | _ => used
  { fault := .unknownArgument ("--" ++ shown name), scope := scope
    mentions := used.map Mention.switch, tip := tip }

/-- **The misuse of a flag with a value.** If options are in use, the usage names them all. -/
def needlessValue (scope : Scope) (hasOptions : Bool) (flag : Switch) (value : Bytes) : Misuse :=
  let options := match scope with
    | .command c => if hasOptions then [Mention.anyOf c] else []
    | _ => []
  { fault := .needlessValue (shown value) flag, scope := scope
    mentions := .switch flag :: options }

/-- The letter, or all that is left if no character can be made out, that stands after a dash. -/
def firstLetter (letters : Bytes) : String :=
  match Utf8.pieces letters with
  | .char c :: _ => String.ofList [c]
  | _ => shown letters

def Scope.lettered? (scope : Scope) (letters : Bytes) : Option Switch :=
  scope.switches.find? fun s =>
    match s.letter? with
    | some c => firstLetter letters = String.ofList [c]
    | none => false

def Scope.named? (scope : Scope) (name : Bytes) : Option Switch :=
  scope.switches.find? fun s => utf8 s.long = name

/-! ### The options of a command -/

/-- **An option with its value**, which must be UTF-8 if it is no path, and not empty if it is. -/
def Opt.setting (o : Opt) (value : Bytes) : Except Fault Setting :=
  let asText (make : String → Setting) : Except Fault Setting :=
    match text? value with
    | some s => .ok (make s)
    | none => .error .notText
  let asPath (make : Path → Setting) : Except Fault Setting :=
    if value = [] then .error (.missingValue o) else .ok (make { bytes := value })
  match o with
  | .payload => asText .payload
  | .secret => asText .secret
  | .secretEnv => asText .secretEnv
  | .certDir => asPath .certDir
  | .key => asPath .key
  | .cert => asPath .cert

/-- What was read of a command's words. -/
structure State where
  /-- The options in use, in the order of their first use. -/
  used : List Opt := []
  settings : List Setting := []
  /-- The last option, if its value was not in the same word, and its value, if that has come. -/
  pending : Option (Opt × Option Bytes) := none
  deriving DecidableEq, Repr

namespace State

/-- **The state after an option got its value**, and the fault, if there is one. -/
def assign (s : State) (o : Opt) : Option Bytes → State × Option Fault
  | none => (s, some (.missingValue o))
  | some value =>
    if s.used.contains o ∧ ¬ o.repeats then
      ({ s with used := s.used.erase o }, some (.repeated o))
    else
      let t := { s with used := if s.used.contains o then s.used else s.used ++ [o] }
      match o.setting value with
      | .ok x => ({ t with settings := t.settings ++ [x] }, none)
      | .error fault => (t, some fault)

/-- The state in which no option is pending, and the fault of the one that was. -/
def settle (s : State) : State × Option Fault :=
  match s.pending with
  | none => (s, none)
  | some (o, value) => ({ s with pending := none } : State).assign o value

def orHalt (c : Command) : State × Option Fault → Except Halt State
  | (s, none) => .ok s
  | (_, some fault) => .error (.misuse { fault := fault, scope := .command c })

def named (s : State) : List Switch := s.used.map Switch.option

/-- **One word more.** The option before it is settled first; at a word that means nothing, a fault
of that option does not count. -/
def step (c : Command) (s : State) (word : Bytes) : Except Halt State :=
  let scope := Scope.command c
  let unknown (word : String) : Except Halt State :=
    .error (.misuse { fault := .unknownArgument word, scope := scope })
  match Word.of word with
  | .long name value =>
    match scope.named? name, value with
    | some (.option o), some v => do orHalt c ((← orHalt c s.settle).assign o (some v))
    | some (.option o), none => do return { ← orHalt c s.settle with pending := some (o, none) }
    | some flag, some v =>
      .error (.misuse (needlessValue scope (!s.used.isEmpty) flag v))
    | some flag, none => do
      let _ ← orHalt c s.settle
      .error (flag.halt scope)
    | none, _ => .error (.misuse (unknownLong scope s.settle.1.named name []))
  | .short letters =>
    match scope.lettered? letters with
    | some _ => do
      let _ ← orHalt c s.settle
      .error (.help scope false)
    | none => unknown ("-" ++ firstLetter letters)
  | _ =>
    match s.pending with
    | some (o, none) => .ok { s with pending := some (o, some word) }
    | _ => unknown (shown word)

/-- **The arguments when there are no more words.** Options that exclude each other are found
here. -/
def finish (c : Command) (s : State) : Except Halt Arguments := do
  let s ← orHalt c s.settle
  let clash := s.used.findSome? fun o => (s.used.find? o.excludes).map fun p => (o, p)
  match clash with
  | some (o, p) =>
    .error (.misuse { fault := .conflict o p, scope := .command c
                      mentions := (s.named.filter fun u => u ≠ .option p).map Mention.switch })
  | none => .ok (.ofSettings c s.settings)

/-- **The arguments of a command**, from a state on. After two dashes there may be no more words. -/
def readFrom (c : Command) (s : State) : List Bytes → Except Halt Arguments
  | [] => s.finish c
  | word :: rest =>
    if Word.of word = .dashes then
      match rest with
      | [] => s.finish c
      | next :: _ =>
        .error (.misuse { fault := .unknownArgument (shown next), scope := .command c })
    else
      match s.step c word with
      | .ok t => t.readFrom c rest
      | .error h => .error h

end State

/-! ### The program -/

/-- The scope that a word opens. -/
def Scope.opened? (scope : Scope) (word : Bytes) : Option Scope :=
  (scope.inner.find? fun i => utf8 i.1 = word).map Prod.snd

def helpOn (scope : Scope) : List Bytes → Halt
  | [] => .help scope true
  | word :: rest =>
    match scope.opened? word with
    | some inner => helpOn inner rest
    | none => .misuse { fault := .unknownCommand (shown word), scope := scope }

/-- A word in the place of a command that names none. -/
def noSuchCommand (word : Bytes) : Misuse :=
  let names := Similarity.similar (shown word) (Scope.program.inner.map Prod.fst)
  { fault := .unknownCommand (shown word), scope := .program
    tip := if names.isEmpty then none else some (.commands names) }

/-- **The end at a first word that opens no scope.** -/
def haltAt (word : Bytes) (rest : List Bytes) : Halt :=
  match Word.of word with
  | .dashes =>
    match rest with
    | [] => .noCommand
    | next :: _ =>
      if (Scope.program.opened? next).isSome then
        .misuse { fault := .unknownArgument (shown next), scope := .program
                  tip := some (.dashes (shown next)) }
      else .misuse (noSuchCommand next)
  | .long name value =>
    match Scope.program.named? name, value with
    | some flag, none => flag.halt .program
    | some flag, some v => .misuse (needlessValue .program false flag v)
    | none, _ => .misuse (unknownLong .program [] name rest)
  | .short letters =>
    match Scope.program.lettered? letters with
    | some flag => flag.halt .program
    | none =>
      .misuse { fault := .unknownArgument ("-" ++ firstLetter letters), scope := .program }
  | .plain => .misuse (noSuchCommand word)

/-- **The arguments that a command line makes.** -/
def read : List Bytes → Except Halt Arguments
  | [] => .error .noCommand
  | word :: rest =>
    match Scope.program.opened? word with
    | some (.command c) => ({} : State).readFrom c rest
    | some .help => .error (helpOn .program rest)
    | _ => .error (haltAt word rest)

end TokenForge.Cli
