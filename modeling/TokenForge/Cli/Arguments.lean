import TokenForge.Cli.Switch
import TokenForge.Disk.Path
import TokenForge.Text.Record

/-!
# Arguments

What a command line says, once it is understood.

* `Setting` — an option with its value;
* `Arguments` — a command with the values of its options, and `Arguments.dump`, which hides the
  secret.
-/

namespace TokenForge.Cli

/-- An option with its value. -/
inductive Setting where
  | payload (json : String)
  | secret (text : String)
  | secretEnv (name : String)
  | certDir (path : Path)
  | key (path : Path)
  | cert (path : Path)
  deriving DecidableEq, Repr

/-- The path that holds if an option is not given. -/
def Opt.defaultPath (o : Opt) : Path := Path.ofText (o.default?.getD "")

/-- The arguments for a token whose payload is not encoded. -/
structure UnencodedArguments where
  payload : Option String := none
  secret : Option String := none
  secretEnv : Option String := none
  deriving DecidableEq, Repr

/-- The arguments for a token with a chain of certificates. -/
structure ChainedArguments where
  payload : Option String := none
  certDir : Path := Opt.certDir.defaultPath
  key : Path := Opt.key.defaultPath
  certs : List Path := []
  deriving DecidableEq, Repr

inductive Arguments where
  | unencoded (a : UnencodedArguments)
  | chained (a : ChainedArguments)
  deriving DecidableEq, Repr

/-! ### From settings -/

def payloadOf? (settings : List Setting) : Option String :=
  settings.findSome? fun | .payload json => some json | _ => none

def UnencodedArguments.ofSettings (settings : List Setting) : UnencodedArguments where
  payload := payloadOf? settings
  secret := settings.findSome? fun | .secret text => some text | _ => none
  secretEnv := settings.findSome? fun | .secretEnv name => some name | _ => none

/-- **The arguments that some settings make.** The certificates keep their order. -/
def ChainedArguments.ofSettings (settings : List Setting) : ChainedArguments :=
  let usual : ChainedArguments := {}
  { payload := payloadOf? settings
    certDir := (settings.findSome? fun | .certDir path => some path | _ => none).getD usual.certDir
    key := (settings.findSome? fun | .key path => some path | _ => none).getD usual.key
    certs := settings.filterMap fun | .cert path => some path | _ => none }

def Arguments.ofSettings (c : Command) (settings : List Setting) : Arguments :=
  match c with
  | .unencoded => .unencoded (.ofSettings settings)
  | .chained => .chained (.ofSettings settings)

/-! ### Dumps -/

/-- **The dump of the arguments.** Of the secret it shows only whether there is one. -/
def UnencodedArguments.dump (a : UnencodedArguments) : String :=
  Text.record "B64FalseArgs"
    [("payload", Text.optional (a.payload.map Text.quote)),
      ("secret", Text.optional (a.secret.map fun _ => Text.redacted)),
      ("secret_env", Text.optional (a.secretEnv.map Text.quote))]

def ChainedArguments.dump (a : ChainedArguments) : String :=
  Text.record "X5cArgs"
    [("payload", Text.optional (a.payload.map Text.quote)), ("cert_dir", a.certDir.dump),
      ("key", a.key.dump), ("certs", Text.listed (a.certs.map Path.dump))]

def Arguments.dump : Arguments → String
  | .unencoded a => Text.record "Cli" [("command", "B64False(" ++ a.dump ++ ")")]
  | .chained a => Text.record "Cli" [("command", "X5c(" ++ a.dump ++ ")")]

end TokenForge.Cli
