import TokenForge.Cli.Switch

/-!
# Help texts

A page of help says what something does, how it is used, and what its words mean. A brief page puts
each word and its meaning on one line; a full page gives a meaning lines of its own, and says more.

* `Entry` — a word with its meaning;
* `brief`, `full` — the entries of a section in either form;
* `page` — the page of a scope.
-/

namespace TokenForge.Cli.Help

/-- A word with its meaning. -/
structure Entry where
  label : String
  /-- What it means, in one sentence without a full stop. -/
  summary : String
  details : Option String := none
  /-- What holds if the word is not given. -/
  otherwise : Option String := none

/-! ### Layout -/

/-- A label filled up to a width. -/
def padded (width : Nat) (label : String) : String :=
  label ++ String.ofList (List.replicate (width - label.length) ' ')

def defaultNote (value : String) : String := "[default: " ++ value ++ "]"

/-- **Entries on one line each**, the meanings in one column. -/
def brief (entries : List Entry) : List String :=
  let width := (entries.map fun e => e.label.length).foldl max 0
  entries.map fun e =>
    "  " ++ padded width e.label ++ "  " ++ e.summary
      ++ (match e.otherwise with
        | some value => " " ++ defaultNote value
        | none => "")

def indent : String := "          "

/-- The paragraphs of a meaning. A summary that is not alone ends in a full stop. -/
def paragraphs (e : Entry) : List String :=
  (match e.details with
    | some more => [e.summary ++ ".", more]
    | none => [e.summary])
    ++ (e.otherwise.map defaultNote).toList

/-- **An entry on lines of its own**, with a line of blanks between paragraphs. -/
def fullEntry (e : Entry) : List String :=
  ("  " ++ e.label) :: ((paragraphs e).map fun p => indent ++ p).intersperse indent

/-- Entries on lines of their own, with an empty line between them. -/
def full (entries : List Entry) : List String := [""].intercalate (entries.map fullEntry)

def part (title : String) (lines : List String) : List String := "" :: (title ++ ":") :: lines

def ofLines (lines : List String) : String := String.join (lines.map (· ++ "\n"))

/-! ### Entries -/

/-- What an option of a command means. -/
def optionEntry (c : Command) (o : Opt) : Entry :=
  let label := "    " ++ o.shown
  match o with
  | .payload =>
    match c with
    | .unencoded =>
      { label := label, summary := "JSON object to embed as the raw payload segment" }
    | .chained =>
      { label := label
        summary := "JSON object to sign (defaults to \x7b\"cool\":false\x7d)" }
  | .secret =>
    { label := label
      summary := "HMAC shared secret (defaults to \"secret\")"
      details := some ("WARNING: Passing secrets via CLI arguments may expose them in shell"
        ++ " history. Prefer --secret-env instead.") }
  | .secretEnv =>
    { label := label
      summary := "Read the HMAC secret from the specified environment variable" }
  | .certDir =>
    { label := label
      summary := "Directory that relative certificate and key paths are resolved against"
      otherwise := o.default? }
  | .key =>
    { label := label
      summary := "PEM-encoded P-256 private key (PKCS#8 or SEC1) used to sign"
      otherwise := o.default? }
  | .cert =>
    { label := label
      summary := "PEM certificate to place in x5c. Repeat to build the chain leaf first"
      details := some ("Replaces the default chain of leaf_cert.pem, intermediate_cert.pem and"
        ++ " root_cert.pem, which makes partial or reordered chains possible.") }

/-- What the flag for help means, on a page that points to the other form with `hint`. -/
def helpEntry (hint : String) : Entry :=
  { label := "-h, --help", summary := "Print help" ++ hint }

def versionEntry : Entry := { label := "-V, --version", summary := "Print version" }

def about : String :=
  "Builds unusual JSON Web Tokens (b64:false payloads, x5c certificate chains) for parser and"
    ++ " validator testing"

def helpAbout : String := "Print this message or the help of the given subcommand(s)"

/-! ### Pages -/

/-- The lines that every page begins with. -/
def heading (scope : Scope) (what : String) : List String :=
  [what, "", "Usage: " ++ usage scope []]

def commandEntries : List Entry :=
  Command.all.map (fun c => { label := c.name, summary := c.about })
    ++ [{ label := helpName, summary := helpAbout }]

/-- **The page of a scope.** Only commands have two forms of it. -/
def page (scope : Scope) (isFull : Bool) : String :=
  ofLines <| match scope with
    | .program =>
      heading scope about ++ part "Commands" (brief commandEntries)
        ++ part "Options" (brief [helpEntry "", versionEntry])
    | .command c =>
      let options := c.options.map (optionEntry c)
      heading scope c.about
        ++ part "Options"
          (if isFull then full (options ++ [helpEntry " (see a summary with '-h')"])
            else brief (options ++ [helpEntry " (see more with '--help')"]))
    | .help =>
      heading scope helpAbout
        ++ part "Arguments"
          (brief [{ label := "[COMMAND]...", summary := "Print help for the subcommand(s)" }])

def version : String := programName ++ " " ++ programVersion ++ "\n"

end TokenForge.Cli.Help
