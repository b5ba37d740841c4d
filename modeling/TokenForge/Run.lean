import TokenForge.Cli.Help
import TokenForge.Cli.Reader
import TokenForge.Environment
import TokenForge.Log.Filter
import TokenForge.Token.Chained
import TokenForge.Token.Unencoded

/-!
# Runs of the program

What the program does with a command line, in an environment and on a disk. A run prints one token,
or a page of help, or nothing; all that goes wrong is said in the diagnostics.

* `Outcome` — what a run leaves behind;
* `unencodedOptions`, `chainedOptions` — what the arguments ask for;
* `run` — a run, for the nonce of its signature;
* `wantedFiles` — the files that a run may read.
-/

namespace TokenForge

open Cli (Arguments UnencodedArguments ChainedArguments Halt)

/-! ### Outcomes -/

/-- **What a run leaves behind.** -/
structure Outcome where
  exit : Nat
  output : String
  /-- The events that the filter lets through. -/
  events : List Log.Event := []
  /-- What is said at the end of the diagnostics. -/
  complaint : String := ""
  deriving DecidableEq, Repr

namespace Outcome

/-- The diagnostics, with one time stamp for all events. The lines of the events are plain ones, so
`NO_COLOR` is assumed to be set to a value that is not empty. -/
def diagnostics (o : Outcome) (stamp : String) : String :=
  String.join (o.events.map (Log.Event.line stamp)) ++ o.complaint

/-- The outcome of a command line that makes no arguments. -/
def ofHalt : Halt → Outcome
  | .help scope isFull => { exit := 0, output := Cli.Help.page scope isFull }
  | .version => { exit := 0, output := Cli.Help.version }
  | .noCommand => { exit := 2, output := "", complaint := Cli.Help.page .program false }
  | .misuse m => { exit := 2, output := "", complaint := m.message }

/-- The outcome of an error, whose wording may have something in front. -/
def ofError (context : String) (e : Error) : Outcome where
  exit := 1
  output := ""
  complaint := "Error: " ++ context ++ e.message ++ "\n"

/-- **The outcome of a token that was built**, or not. -/
def ofLogged (filter : Log.Filter) (context : String) (token : Logged String) : Outcome :=
  let ended : Outcome := match token.result with
    | .ok t => { exit := 0, output := t ++ "\n" }
    | .error e => ofError context e
  { ended with events := token.events.filter filter.shows }

end Outcome

/-! ### The two commands -/

def payloadOr (usual : Json.Value) : Option String → Except Error Json.Value
  | none => .ok usual
  | some json => Payload.read json

/-- **The secret.** One that is given goes before one in a variable. -/
def secretOr (env : Environment) (usual : String) (a : UnencodedArguments) :
    Except Error String :=
  match a.secret, a.secretEnv with
  | some secret, _ => .ok secret
  | none, some name =>
    match env.text? name with
    | some secret => .ok secret
    | none => .error (.variableNotSet name)
  | none, none => .ok usual

/-- **What the arguments ask for.** The payload is read before the secret. -/
def unencodedOptions (env : Environment) (a : UnencodedArguments) :
    Except Error Unencoded.Options := do
  let usual : Unencoded.Options := {}
  let payload ← payloadOr usual.payload a.payload
  let secret ← secretOr env usual.secret a
  return { payload := payload, secret := secret }

/-- **What the arguments ask for.** Every path is seen from the directory of the files. -/
def chainedOptions (a : ChainedArguments) : Except Error Chained.Options := do
  let usual := Chained.Options.inDir a.certDir
  let payload ← payloadOr usual.payload a.payload
  return { payload := payload
           key := a.certDir.join a.key
           chain := if a.certs.isEmpty then usual.chain else a.certs.map a.certDir.join }

def unencodedEvent (o : Unencoded.Options) : Log.Event where
  level := .info
  target := "jwt_fixtures::commands::b64_false"
  message := "building unencoded-payload token"
  fields := [("options", o.dump)]

def chainedEvent (o : Chained.Options) : Log.Event where
  level := .info
  target := "jwt_fixtures::commands::x5c"
  message := "building x5c token"
  fields := [("key", o.key.shown), ("chain_len", Log.count o.chain.length)]

def runUnencoded (env : Environment) (filter : Log.Filter) (a : UnencodedArguments) : Outcome :=
  match unencodedOptions env a with
  | .error e => .ofError "" e
  | .ok o =>
    .ofLogged filter "could not build b64:false token: " do
      Logged.emit (unencodedEvent o)
      o.build

def runChained (disk : Disk) (k : P256.Scalar) (filter : Log.Filter) (a : ChainedArguments) :
    Outcome :=
  match chainedOptions a with
  | .error e => .ofError "" e
  | .ok o =>
    .ofLogged filter "could not build x5c token: " do
      Logged.emit (chainedEvent o)
      o.build disk k

/-! ### The program -/

def filterVariable : String := "RUST_LOG"

/-- **A run of the program** with a command line, for the nonce `k`. -/
def run (env : Environment) (disk : Disk) (k : P256.Scalar) (words : List Bytes) : Outcome :=
  match Cli.read words with
  | .error halt => .ofHalt halt
  | .ok arguments =>
    let filter := Log.Filter.ofVariable (env (utf8 filterVariable))
    match arguments with
    | .unencoded a => runUnencoded env filter a
    | .chained a => runChained disk k filter a

/-- The files that a run may read. -/
def wantedFiles (words : List Bytes) : List Path :=
  match Cli.read words with
  | .ok (.chained a) => ((chainedOptions a).map fun o => o.chain ++ [o.key]).toOption.getD []
  | _ => []

/-- The names of the variables that a run may ask for. -/
def wantedVariables (words : List Bytes) : List String :=
  match Cli.read words with
  | .ok (.unencoded a) => filterVariable :: a.secretEnv.toList
  | _ => [filterVariable]

end TokenForge
