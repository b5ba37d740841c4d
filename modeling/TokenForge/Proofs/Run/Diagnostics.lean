import TokenForge.Disk.Tree
import TokenForge.Proofs.Run.Outcome
import TokenForge.Proofs.Run.Wording

/-!
# The diagnostics of a run that fails

Where no filter is set, no event is shown, and the diagnostics of a failed command are the wording of
its error and a line feed. The wording quotes names of variables, paths and labels as they are, so
the diagnostics are one line if and only if none of these breaks it (`diagnostics_of_error`); and a
label may (`diagnostics_brokenLabel`).

* `Logged.IsQuiet`, `run_events_eq_nil` — no event is shown without a filter;
* `Quotes` — the texts that an error quotes, `errorsHave_handled` — each error that can come of a
  command quotes such texts and no others.
-/

namespace TokenForge

open Cli (Arguments)

/-! ### Events -/

/-- **A computation whose events no one sees**, unless a filter asks for them. -/
def Logged.IsQuiet {α : Type} (x : Logged α) : Prop :=
  ∀ e ∈ x.events, Log.Level.admits (some .warn) e.level = false

namespace Logged

variable {α β : Type} {x : Logged α} {f : α → Logged β}

/-- What has no events is quiet. -/
theorem isQuiet_of (r : Except Error α) : (Logged.of r).IsQuiet :=
  fun _ h => absurd h List.not_mem_nil

theorem isQuiet_pure (a : α) : (pure a : Logged α).IsQuiet :=
  fun _ h => absurd h List.not_mem_nil

/-- An event that is admitted only below a warning is quiet. -/
theorem isQuiet_emit {e : Log.Event} (h : Log.Level.admits (some .warn) e.level = false) :
    (Logged.emit e).IsQuiet := by
  intro d hd
  rwa [List.mem_singleton.mp hd]

/-- **Quiet computations in a row** are quiet. -/
theorem IsQuiet.bind (hx : x.IsQuiet) (hf : ∀ a, (f a).IsQuiet) : (x >>= f).IsQuiet := by
  intro e he
  rw [events_bind, List.mem_append] at he
  -- an event of the first one, or of the second if the first has a result
  rcases he with he | he
  · exact hx e he
  · cases hresult : x.result with
    | error _ =>
      rw [hresult] at he
      exact absurd he List.not_mem_nil
    | ok a =>
      rw [hresult] at he
      exact hf a e he

end Logged

/-- A token that is not encoded is built quietly, whichever check ends it. -/
theorem Unencoded.isQuiet_build (payload : Json.Value) (secret : String) :
    (build payload secret).IsQuiet := by
  unfold build
  refine (Logged.isQuiet_of _).bind fun _ => ?_
  split
  · exact (Logged.isQuiet_of _).bind fun _ =>
      (Logged.isQuiet_emit rfl).bind fun _ => Logged.isQuiet_pure _
  · exact (Logged.isQuiet_emit rfl).bind fun _ => Logged.isQuiet_pure _

/-- A chain is read quietly, file by file. -/
theorem Certificate.isQuiet_loadChain (disk : Disk) (paths : List Path) :
    (loadChain disk paths).IsQuiet := by
  induction paths with
  | nil => exact Logged.isQuiet_pure _
  | cons path paths ih =>
    have hload : (load disk path).IsQuiet :=
      (Logged.isQuiet_of _).bind fun _ =>
        (Logged.isQuiet_emit rfl).bind fun _ => Logged.isQuiet_pure _
    exact hload.bind fun _ => ih.bind fun _ => Logged.isQuiet_pure _

/-- A token with a chain is built quietly, whichever check ends it. -/
theorem Chained.isQuiet_build (k : P256.Scalar) (payload : Json.Value) (keyText : String)
    (chain : List String) : (Chained.build k payload keyText chain).IsQuiet := by
  -- the one event comes behind all checks
  have hsigned (d : P256.Scalar) : Logged.IsQuiet (do
      Logged.emit (signedEvent chain)
      return signingInput payload chain ++ "." ++ signature d k (signingInput payload chain)) :=
    (Logged.isQuiet_emit rfl).bind fun _ => Logged.isQuiet_pure _
  unfold Chained.build
  refine (Logged.isQuiet_of _).bind fun _ => ?_
  split
  · exact (Logged.isQuiet_of _).bind fun _ => (Logged.isQuiet_of _).bind hsigned
  · exact (Logged.isQuiet_of _).bind hsigned

/-- A token with a chain is built quietly from its options on. -/
theorem Chained.Options.isQuiet_build (disk : Disk) (k : P256.Scalar) (o : Chained.Options) :
    (o.build disk k).IsQuiet := by
  refine (Certificate.isQuiet_loadChain disk o.chain).bind fun chain => ?_
  refine (Logged.isQuiet_emit rfl).bind fun _ => ?_
  exact (Logged.isQuiet_of _).bind fun text => Chained.isQuiet_build k o.payload text chain

/-- Where no filter is set, a quiet computation shows nothing. -/
theorem Outcome.events_ofLogged_usual {x : Logged String} (h : x.IsQuiet) (context : String) :
    (Outcome.ofLogged .usual context x).events = [] :=
  List.filter_eq_nil_iff.mpr fun e he => Bool.not_eq_true _ |>.mpr (h e he)

variable {env : Environment} {disk : Disk} {k : P256.Scalar} {words : List Bytes}
  {arguments : Arguments} {e : Error}

/-- **No event is shown without a filter.** -/
theorem run_events_eq_nil (hfilter : env (utf8 filterVariable) = none) (disk : Disk)
    (k : P256.Scalar) (words : List Bytes) : (run env disk k words).events = [] := by
  have husual : Log.Filter.ofVariable (env (utf8 filterVariable)) = .usual := by
    rw [hfilter]
    rfl
  cases hread : Cli.read words with
  | error halt =>
    rw [run_of_halt hread]
    cases halt <;> rfl
  | ok arguments =>
    rw [run, hread]
    simp only [husual]
    cases arguments with
    | unencoded a =>
      simp only [runUnencoded]
      cases unencodedOptions env a with
      | error e => rfl
      | ok o =>
        -- the event in front of the build tells the options, at a level that is not shown either
        exact Outcome.events_ofLogged_usual
          ((Logged.isQuiet_emit rfl).bind fun _ => Unencoded.isQuiet_build o.payload o.secret) _
    | chained a =>
      simp only [runChained]
      cases chainedOptions a with
      | error e => rfl
      | ok o =>
        exact Outcome.events_ofLogged_usual
          ((Logged.isQuiet_emit rfl).bind fun _ => o.isQuiet_build disk k) _

/-! ### What errors quote -/

/-- **The texts that an error quotes**: the name of a variable, the path of a file, and the labels
of a block. The rest of its wording is one line. -/
inductive Quotes : Error → List String → Prop where
  | payloadNotObject (v : Json.Value) : Quotes (.payloadNotObject v.kind) []
  | invalidPayload (fault : Json.Fault) : Quotes (.invalidPayload fault.message) []
  | emptySecret : Quotes .emptySecret []
  | variableNotSet (name : String) : Quotes (.variableNotSet name) [name]
  | certificateUnread (path : Path) {fault : ReadFault} :
    lineFeeds fault.message = 0 →
      Quotes (.certificateUnread path.shown fault.message) [path.shown]
  | certificateUndecoded (path : Path) {fault : Pem.Lenient.Fault} :
    fault.IsOneLineBut →
      Quotes (.certificateUndecoded path.shown fault.message) (path.shown :: fault.quoted)
  | notCertificate (path : Path) (label : String) :
    Quotes (.notCertificate path.shown label) [path.shown, label]
  | emptyChain : Quotes .emptyChain []
  | keyUnread (path : Path) {fault : ReadFault} :
    lineFeeds fault.message = 0 → Quotes (.keyUnread path.shown fault.message) [path.shown]
  | invalidKey {fault : Key.Fault} : fault.IsOneLine → Quotes (.invalidKey fault.message) []

/-- The kind of a value is named in one line. -/
theorem lineFeeds_kind (v : Json.Value) : lineFeeds v.kind = 0 := by
  unfold Json.Value.kind
  split <;> decide

/-- **The line feeds of an error are those of the texts that it quotes.** -/
theorem Quotes.lineFeeds_message {texts : List String} (h : Quotes e texts) :
    lineFeeds e.message = (texts.map lineFeeds).sum := by
  unfold Error.message
  -- error by error: the fixed parts of the wording break no line, so what is left to count is
  -- quoted
  cases h with
  | payloadNotObject v =>
    have hfixed : lineFeeds "payload must be a JSON object, got " = 0 := by decide
    simp [lineFeeds_append, hfixed, lineFeeds_kind]
  | invalidPayload fault =>
    have hfixed : lineFeeds "failed to parse payload as JSON: " = 0 := by decide
    simp [lineFeeds_append, hfixed, fault.lineFeeds_message]
  | emptySecret => decide
  | variableNotSet name =>
    have hfront : lineFeeds "environment variable '" = 0 := by decide
    have hback : lineFeeds "' is not set" = 0 := by decide
    simp [lineFeeds_append, hfront, hback]
  | certificateUnread path hfault =>
    have hfront : lineFeeds "failed to read certificate file '" = 0 := by decide
    have hback : lineFeeds "': " = 0 := by decide
    simp [lineFeeds_append, hfront, hback, hfault]
  | certificateUndecoded path hfault =>
    have hfront : lineFeeds "failed to decode PEM from '" = 0 := by decide
    have hback : lineFeeds "': " = 0 := by decide
    rw [Pem.Lenient.Fault.IsOneLineBut] at hfault
    simp [lineFeeds_append, hfront, hback, hfault]
  | notCertificate path label =>
    have hfront : lineFeeds "expected a CERTIFICATE PEM block in '" = 0 := by decide
    have hmiddle : lineFeeds "', found '" = 0 := by decide
    have hback : lineFeeds "'" = 0 := by decide
    simp [lineFeeds_append, hfront, hmiddle, hback]
  | emptyChain => decide
  | keyUnread path hfault =>
    have hfront : lineFeeds "failed to read key file '" = 0 := by decide
    have hback : lineFeeds "': " = 0 := by decide
    simp [lineFeeds_append, hfront, hback, hfault]
  | invalidKey hfault =>
    have hfixed : lineFeeds "invalid ES256 signing key: " = 0 := by decide
    rw [Key.Fault.IsOneLine] at hfault
    simp [lineFeeds_append, hfixed, hfault]

/-- An error that quotes such texts and no others. -/
def Quoting (e : Error) : Prop := ∃ texts, Quotes e texts

/-- A disk that says on one line why a file cannot be read. -/
def Disk.IsOneLine (disk : Disk) : Prop :=
  ∀ path fault, disk path = .error fault → lineFeeds fault.message = 0

/-- **A file that is no text** is refused on one line, as one that cannot be read is. -/
theorem Disk.errorsHave_readText (hdisk : disk.IsOneLine) (path : Path) :
    ErrorsHave (fun fault => lineFeeds fault.message = 0) (disk.readText path) := by
  unfold Disk.readText
  split
  next fault hfault => exact errorsHave_error (hdisk path fault hfault)
  · split
    · exact errorsHave_ok _ _
    · exact errorsHave_error (by decide)

/-- Of a payload that is no object only the kind is told. -/
theorem Payload.errorsHave_check (v : Json.Value) : ErrorsHave Quoting (check v) := by
  unfold check
  split
  · exact errorsHave_ok _ _
  · exact errorsHave_error ⟨_, .payloadNotObject v⟩

/-- Of a payload that is not read only the fault of the reader is told. -/
theorem Payload.errorsHave_read (text : String) : ErrorsHave Quoting (read text) := by
  have hread : ErrorsHave Quoting
      ((Json.read text).mapError fun fault => .invalidPayload fault.message) :=
    ErrorsHave.mapError fun fault _ => ⟨_, .invalidPayload fault⟩
  exact hread.bind fun v => (errorsHave_check v).bind fun _ => errorsHave_ok _ _

/-- A payload that is not given cannot be at fault. -/
theorem errorsHave_payloadOr (usual : Json.Value) (text : Option String) :
    ErrorsHave Quoting (payloadOr usual text) := by
  cases text with
  | none => exact errorsHave_ok _ _
  | some text => exact Payload.errorsHave_read text

/-- A secret that is not there is blamed on its variable. -/
theorem errorsHave_secretOr (env : Environment) (usual : String) (a : Cli.UnencodedArguments) :
    ErrorsHave Quoting (secretOr env usual a) := by
  unfold secretOr
  split
  · exact errorsHave_ok _ _
  next name _ _ =>
    split
    · exact errorsHave_ok _ _
    · exact errorsHave_error ⟨_, .variableNotSet name⟩
  · exact errorsHave_ok _ _

/-- **Building a token that is not encoded** fails for the payload or for an empty secret. -/
theorem Unencoded.errorsHave_result_build (payload : Json.Value) (secret : String) :
    ErrorsHave Quoting (build payload secret).result := by
  unfold build
  rw [Logged.result_bind]
  refine (Payload.errorsHave_check payload).bind fun _ => ?_
  split
  · exact errorsHave_error ⟨_, .emptySecret⟩
  · exact errorsHave_ok _ _

/-- **A certificate file** is refused with its path: when it is read, when it is decoded, or for its
label. -/
theorem Certificate.errorsHave_ofFile (hdisk : disk.IsOneLine) (path : Path) :
    ErrorsHave Quoting (ofFile disk path) := by
  unfold ofFile
  split
  next fault hfault =>
    exact errorsHave_error ⟨_, .certificateUnread path
      (Disk.errorsHave_readText hdisk path fault hfault)⟩
  next text _ =>
    unfold body
    split
    next fault hfault =>
      exact errorsHave_error ⟨_, .certificateUndecoded path
        (Pem.Lenient.errorsHave_decode text fault hfault)⟩
    -- the label is quoted as it is in the file
    next found _ _ =>
      split
      · exact errorsHave_ok _ _
      · exact errorsHave_error ⟨_, .notCertificate path found⟩

/-- The files of a chain are refused like each of them. -/
theorem Certificate.errorsHave_loadChain (hdisk : disk.IsOneLine) (paths : List Path) :
    ErrorsHave Quoting (loadChain disk paths).result := by
  induction paths with
  | nil => exact errorsHave_ok _ _
  -- the first file that is refused gives the error, and no later one is looked at
  | cons path paths ih =>
    rw [result_loadChain_cons]
    exact (errorsHave_ofFile hdisk path).bind fun _ => ih.map

/-- **Building a token with a chain** fails for the payload, for an empty chain or for the key. -/
theorem Chained.errorsHave_result_build (k : P256.Scalar) (payload : Json.Value) (text : String)
    (chain : List String) : ErrorsHave Quoting (build k payload text chain).result := by
  have hkey : ErrorsHave Quoting
      ((Key.read text).mapError fun fault => .invalidKey fault.message) :=
    ErrorsHave.mapError fun fault h => ⟨_, .invalidKey (Key.errorsHave_read text fault h)⟩
  rw [result_build]
  refine (Payload.errorsHave_check payload).bind fun _ => ?_
  split
  · exact errorsHave_error ⟨_, .emptyChain⟩
  · exact hkey.map

/-- From the options on, it may also fail for the file of the key. -/
theorem Chained.Options.errorsHave_result_build (hdisk : disk.IsOneLine) (k : P256.Scalar)
    (o : Chained.Options) : ErrorsHave Quoting (o.build disk k).result := by
  have hkey : ErrorsHave Quoting (keyText disk o.key) :=
    ErrorsHave.mapError fun fault h =>
      ⟨_, .keyUnread o.key (Disk.errorsHave_readText hdisk o.key fault h)⟩
  rw [Options.result_build]
  refine (Certificate.errorsHave_loadChain hdisk o.chain).bind fun chain => ?_
  exact hkey.bind fun text => Chained.errorsHave_result_build k o.payload text chain

/-- **Every error that can come of a command quotes such texts and no others.** -/
theorem errorsHave_handled (env : Environment) (hdisk : disk.IsOneLine) (k : P256.Scalar)
    (arguments : Arguments) : ErrorsHave Quoting (handled env disk k arguments) := by
  cases arguments with
  | unencoded a =>
    -- the options fail for what they ask for, and the build for what it finds
    have hoptions : ErrorsHave Quoting (unencodedOptions env a) :=
      (errorsHave_payloadOr _ a.payload).bind fun _ =>
        (errorsHave_secretOr env _ a).bind fun _ => errorsHave_ok _ _
    exact hoptions.bind fun o => Unencoded.errorsHave_result_build o.payload o.secret
  | chained a =>
    have hoptions : ErrorsHave Quoting (chainedOptions a) :=
      (errorsHave_payloadOr _ a.payload).bind fun _ => errorsHave_ok _ _
    exact hoptions.bind fun o => o.errorsHave_result_build hdisk k

/-! ### Disks -/

/-- A walk through a tree stops at a part that is missing, no directory or too long a name, and
says so on one line. -/
theorem Tree.errorsHave_walk (t : Tree) (start parts : List Bytes) :
    ErrorsHave (fun fault => lineFeeds fault.message = 0) (t.walk start parts) := by
  induction parts generalizing start with
  | nil => exact errorsHave_ok _ _
  | cons part rest ih =>
    unfold Tree.walk
    split
    · exact errorsHave_error (by decide)
    · exact errorsHave_error (by decide)
    · -- a part that stays in place, one that goes up, too long a name, and one that goes down
      split_ifs
      · exact ih _
      · exact ih _
      · exact errorsHave_error (by decide)
      · exact ih _

/-- **A tree says on one line why a file cannot be read.** -/
theorem Tree.isOneLine_disk (t : Tree) : t.disk.IsOneLine := by
  intro path
  unfold Tree.disk
  split
  · exact errorsHave_error (by decide)
  split
  · exact errorsHave_error (by decide)
  split
  · exact errorsHave_error (by decide)
  refine (t.errorsHave_walk _ _).bind fun place => ?_
  split
  · exact errorsHave_error (by decide)
  · exact errorsHave_error (by decide)
  · exact errorsHave_ok _ _

/-! ### The diagnostics -/

/-- A context breaks no line. -/
theorem lineFeeds_of_mem_contexts {context : String} (h : context ∈ contexts) :
    lineFeeds context = 0 := by
  have hall : ∀ context ∈ contexts, lineFeeds context = 0 := by decide
  exact hall context h

/-- **The diagnostics of a failed command** are the wording of its error and a line feed, where no
filter is set. They are one line if and only if no text that the error quotes breaks it: the name of
a variable, the path of a file or the label of a block. -/
theorem diagnostics_of_error (k : P256.Scalar) (stamp : String)
    (hfilter : env (utf8 filterVariable) = none) (hdisk : disk.IsOneLine)
    (hread : Cli.read words = .ok arguments) (herror : handled env disk k arguments = .error e) :
    ∃ context ∈ contexts, ∃ texts, Quotes e texts ∧
      (run env disk k words).diagnostics stamp = "Error: " ++ (context ++ e.message) ++ "\n" ∧
      lineFeeds (context ++ e.message) = (texts.map lineFeeds).sum ∧
      ('\n' ∉ (context ++ e.message).toList ↔ ∀ text ∈ texts, '\n' ∉ text.toList) := by
  obtain ⟨texts, hquotes⟩ := errorsHave_handled env hdisk k arguments e herror
  -- what the run complains of is the error, behind a context that breaks no line
  have hconcludes := run_concludes env disk k hread
  rw [herror] at hconcludes
  obtain ⟨-, -, context, hcontext, hcomplaint⟩ := hconcludes
  have hcount : lineFeeds (context ++ e.message) = (texts.map lineFeeds).sum := by
    rw [lineFeeds_append, lineFeeds_of_mem_contexts hcontext, hquotes.lineFeeds_message,
      Nat.zero_add]
  refine ⟨context, hcontext, texts, hquotes, ?_, hcount, ?_⟩
  · rw [Outcome.diagnostics, run_events_eq_nil hfilter, hcomplaint]
    simp [String.append_assoc]
  · -- a sum of counts is zero if each of them is
    rw [← lineFeeds_eq_zero_iff, hcount]
    simp [List.sum_eq_zero_iff_forall_eq_nat, lineFeeds_eq_zero_iff]

/-- An environment without variables. -/
def bare : Environment := fun _ => none

def unsetWords : List Bytes := [utf8 "b64-false", utf8 "--secret-env", utf8 "KEY"]

/-- A variable with a name of one line, which is not set. -/
theorem diagnostics_of_unset :
    bare (utf8 filterVariable) = none ∧ (Tree.empty []).disk.IsOneLine ∧
      Cli.read unsetWords = .ok (.unencoded { secretEnv := some "KEY" }) ∧
      handled bare (Tree.empty []).disk { val := 1 } (.unencoded { secretEnv := some "KEY" }) =
        .error (.variableNotSet "KEY") ∧
      ∃ line : String, '\n' ∉ line.toList ∧
        (run bare (Tree.empty []).disk { val := 1 } unsetWords).diagnostics "" =
          "Error: " ++ line ++ "\n" := by
  have hdisk : (Tree.empty []).disk.IsOneLine := Tree.isOneLine_disk _
  have hread : Cli.read unsetWords = .ok (.unencoded { secretEnv := some "KEY" }) :=
    toOption_eq_some.mp (by decide +kernel)
  have herror : handled bare (Tree.empty []).disk { val := 1 }
      (.unencoded { secretEnv := some "KEY" }) = .error (.variableNotSet "KEY") := rfl
  refine ⟨rfl, hdisk, hread, herror, ?_⟩
  obtain ⟨context, -, texts, hquotes, hdiagnostics, -, hline⟩ :=
    diagnostics_of_error { val := 1 } "" rfl hdisk hread herror
  refine ⟨_, hline.mpr ?_, hdiagnostics⟩
  cases hquotes
  decide

/-- **A certificate file whose label breaks the line.** -/
def brokenLabel : String :=
  "-----BEGIN CERT\nIFICATE-----\nAAAA\n-----END CERT\nIFICATE-----\n"

def brokenTree : Tree :=
  (Tree.empty []).add (Path.ofText "c.pem") (.file (utf8 brokenLabel))

def brokenWords : List Bytes := [utf8 "x5c", utf8 "--cert", utf8 "c.pem"]

/-- **The diagnostics of such a file are two lines.** -/
theorem diagnostics_brokenLabel :
    Cli.read brokenWords = .ok (.chained { certs := [Path.ofText "c.pem"] }) ∧
      (run bare brokenTree.disk { val := 1 } brokenWords).exit = 1 ∧
      (run bare brokenTree.disk { val := 1 } brokenWords).diagnostics "" =
        "Error: could not build x5c token: expected a CERTIFICATE PEM block in './c.pem', " ++
          "found 'CERT\nIFICATE'\n" ∧
      lineFeeds ((run bare brokenTree.disk { val := 1 } brokenWords).diagnostics "") =
        2 := by
  have hread : Cli.read brokenWords = .ok (.chained { certs := [Path.ofText "c.pem"] }) :=
    toOption_eq_some.mp (by decide +kernel)
  have hrun : run bare brokenTree.disk { val := 1 } brokenWords =
      { exit := 1, output := "",
        complaint := "Error: could not build x5c token: expected a CERTIFICATE PEM block in " ++
          "'./c.pem', found 'CERT\nIFICATE'\n" } := by
    decide +kernel
  rw [hrun]
  exact ⟨hread, rfl, by decide +kernel, by decide +kernel⟩

end TokenForge
