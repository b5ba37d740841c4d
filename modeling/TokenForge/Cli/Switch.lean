/-!
# Commands and options

The words of the command line. Every command has options that take a value, and a flag that asks for
help; the program itself has flags only.

* `Command` — the two commands;
* `Opt` — the options with a value, `Switch` — these and the flags;
* `Scope` — where words are read: before a command, in one, or as a request for help.
-/

namespace TokenForge.Cli

def programName : String := "jwt-fixtures"

def programVersion : String := "0.1.0"

inductive Command where
  /-- A token whose payload is not encoded. -/
  | unencoded
  /-- A token with a chain of certificates. -/
  | chained
  deriving DecidableEq, Repr

namespace Command

def all : List Command := [.unencoded, .chained]

def name : Command → String
  | .unencoded => "b64-false"
  | .chained => "x5c"

def about : Command → String
  | .unencoded => "Print an HS256 token whose header sets \"b64\": false (raw JSON payload)"
  | .chained => "Print an ES256 token carrying an x5c certificate chain from PEM files"

end Command

/-! ### Options -/

/-- An option that takes a value. -/
inductive Opt where
  | payload
  | secret
  | secretEnv
  | certDir
  | key
  | cert
  deriving DecidableEq, Repr

namespace Opt

/-- The word for an option, without its dashes. -/
def long : Opt → String
  | .payload => "payload"
  | .secret => "secret"
  | .secretEnv => "secret-env"
  | .certDir => "cert-dir"
  | .key => "key"
  | .cert => "cert"

def valueName : Opt → String
  | .payload => "JSON"
  | .secret => "SECRET"
  | .secretEnv => "VAR_NAME"
  | .certDir => "DIR"
  | .key => "FILE"
  | .cert => "FILE"

def shown (o : Opt) : String := "--" ++ o.long ++ " <" ++ o.valueName ++ ">"

/-- What holds if an option is not given, where that is one value. -/
def default? : Opt → Option String
  | .certDir => some "."
  | .key => some "leaf_key.pem"
  | _ => none

/-- Whether an option may be given more than once. -/
def repeats : Opt → Bool
  | .cert => true
  | _ => false

def excludes : Opt → Opt → Bool
  | .secret, .secretEnv => true
  | .secretEnv, .secret => true
  | _, _ => false

end Opt

def Command.options : Command → List Opt
  | .unencoded => [.payload, .secret, .secretEnv]
  | .chained => [.payload, .certDir, .key, .cert]

/-- A word that begins with dashes. -/
inductive Switch where
  | option (o : Opt)
  | help
  | version
  deriving DecidableEq, Repr

namespace Switch

/-- The word for a switch, without its dashes. -/
def long : Switch → String
  | .option o => o.long
  | .help => "help"
  | .version => "version"

def shown : Switch → String
  | .option o => o.shown
  | .help => "--help"
  | .version => "--version"

def letter? : Switch → Option Char
  | .option _ => none
  | .help => some 'h'
  | .version => some 'V'

end Switch

/-! ### Scopes -/

/-- Where words are read. -/
inductive Scope where
  | program
  | command (c : Command)
  /-- After the word that asks for help with a command. -/
  | help
  deriving DecidableEq, Repr

def helpName : String := "help"

namespace Scope

/-- The switches that are known in a scope. -/
def switches : Scope → List Switch
  | .program => [.help, .version]
  | .command c => c.options.map Switch.option ++ [.help]
  | .help => []

/-- The words that open a scope within a scope. -/
def inner : Scope → List (String × Scope)
  | .program => Command.all.map (fun c => (c.name, .command c)) ++ [(helpName, .help)]
  | _ => []

def words : Scope → String
  | .program => programName
  | .command c => programName ++ " " ++ c.name
  | .help => programName ++ " " ++ helpName

end Scope

/-! ### Usage -/

/-- What a line of usage names. -/
inductive Mention where
  | switch (s : Switch)
  /-- The options of a command, of which any may be given. -/
  | anyOf (c : Command)
  deriving DecidableEq, Repr

def Mention.shown : Mention → String
  | .switch s => s.shown
  | .anyOf c => "<" ++ "|".intercalate (c.options.map Opt.shown) ++ ">"

/-- **How a scope is used.** What is mentioned is named; otherwise the line only says that there are
options. -/
def usage (scope : Scope) (mentions : List Mention) : String :=
  let named := mentions.map fun m => " " ++ m.shown
  match scope with
  | .program => scope.words ++ String.join named ++ " <COMMAND>"
  | .command _ => scope.words ++ if mentions.isEmpty then " [OPTIONS]" else String.join named
  | .help => scope.words ++ " [COMMAND]..."

end TokenForge.Cli
