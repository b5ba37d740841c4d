import TokenForge.Cli.Switch

/-!
# Misused command lines

* `Tip` — a hint at what could have been meant;
* `Fault` — what is wrong with a command line, and `Fault.message`, its wording;
* `Misuse` — a fault in its scope, and `Misuse.message`, the whole diagnostic.
-/

namespace TokenForge.Cli

/-- A hint at what could have been meant. -/
inductive Tip where
  /-- An option of this scope has a similar name. -/
  | switch (s : Switch)
  /-- An option of a command that follows has a similar name. -/
  | switchOf (c : Command) (s : Switch)
  /-- Commands have similar names. -/
  | commands (names : List String)
  /-- The dashes before the name of a command are in the way. -/
  | dashes (name : String)
  deriving DecidableEq, Repr

def quoted (s : String) : String := "'" ++ s ++ "'"

def Tip.message : Tip → String
  | .switch s => "a similar argument exists: " ++ quoted ("--" ++ s.long)
  | .switchOf c s => quoted (c.name ++ " --" ++ s.long) ++ " exists"
  | .commands names =>
    (if names.length = 1 then "a similar subcommand exists: "
      else "some similar subcommands exist: ") ++ ", ".intercalate (names.map quoted)
  | .dashes name =>
    "subcommand " ++ quoted name ++ " exists; to use it, remove the '--' before it"

inductive Fault where
  | unknownCommand (name : String)
  | unknownArgument (word : String)
  /-- An option has no value, or an empty one that cannot be a path. -/
  | missingValue (o : Opt)
  | repeated (o : Opt)
  | conflict (first second : Opt)
  /-- A value is not UTF-8. -/
  | notText
  /-- A flag is given a value. -/
  | needlessValue (value : String) (s : Switch)
  deriving DecidableEq, Repr

def Fault.message : Fault → String
  | .unknownCommand name => "unrecognized subcommand " ++ quoted name
  | .unknownArgument word => "unexpected argument " ++ quoted word ++ " found"
  | .missingValue o =>
    "a value is required for " ++ quoted o.shown ++ " but none was supplied"
  | .repeated o => "the argument " ++ quoted o.shown ++ " cannot be used multiple times"
  | .conflict first second =>
    "the argument " ++ quoted first.shown ++ " cannot be used with " ++ quoted second.shown
  | .notText => "invalid UTF-8 was detected in one or more arguments"
  | .needlessValue value s =>
    "unexpected value " ++ quoted value ++ " for " ++ quoted s.shown
      ++ " found; no more were expected"

/-- Whether a fault is shown with the usage of its scope. -/
def Fault.showsUsage : Fault → Bool
  | .missingValue _ => false
  | _ => true

/-- A fault in its scope. -/
structure Misuse where
  fault : Fault
  scope : Scope
  /-- What the usage names. -/
  mentions : List Mention := []
  tip : Option Tip := none
  deriving DecidableEq, Repr

/-- **The diagnostic of a misuse.** It points to the flag for help where there is one. -/
def Misuse.message (m : Misuse) : String :=
  "error: " ++ m.fault.message
    ++ (match m.tip with
      | some tip => "\n\n  tip: " ++ tip.message
      | none => "")
    ++ (if m.fault.showsUsage then "\n\nUsage: " ++ usage m.scope m.mentions else "")
    ++ (if m.scope = .help then "\n" else "\n\nFor more information, try '--help'.\n")

end TokenForge.Cli
