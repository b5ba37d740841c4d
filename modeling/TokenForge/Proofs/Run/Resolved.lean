import TokenForge.Proofs.Json.Truncated
import TokenForge.Proofs.Run.Outcome

/-!
# What the arguments of a token with a chain come to

The arguments are resolved before any file is looked at: either the payload is refused, or there is a
payload that is an object, and a chain that is not empty, with each path seen from the directory of
the files (`Cli.ChainedArguments.ComesTo`). The builder checks the payload and the chain once more,
but what it is given has passed both checks already; so no command line and no files make a run
complain of a chain that is empty, or of the payload once the files are read
(`chainedOptions_resolves`).

* `Path.SeenFrom` — the two ways in which a path is seen from a directory;
* `Chained.Options.errorsHave_build` — the errors that are left when both checks are passed;
* `FailsWith`, `failsWith_of_complains` — how a command fails, and that a complaint tells it.
-/

namespace TokenForge

open Cli (Arguments ChainedArguments Halt)

/-! ### Paths -/

/-- **A path as it is seen from a directory.** An absolute one is the same from everywhere. Another
one goes behind the directory, and a slash goes between them unless the directory is empty or ends in
one. -/
inductive Path.SeenFrom (dir : Path) : Path → Path → Prop where
  | absolute {p : Path} : p.bytes.head? = some slash → SeenFrom dir p p
  | joined {p : Path} : p.bytes.head? ≠ some slash →
      dir.bytes = [] ∨ dir.bytes.getLast? = some slash →
        SeenFrom dir p { bytes := dir.bytes ++ p.bytes }
  | parted {p : Path} : p.bytes.head? ≠ some slash →
      dir.bytes ≠ [] → dir.bytes.getLast? ≠ some slash →
        SeenFrom dir p { bytes := dir.bytes ++ slash :: p.bytes }

/-- Paths are joined as they are seen. -/
theorem Path.seenFrom_join (dir p : Path) : SeenFrom dir p (dir.join p) := by
  unfold join
  split
  · next habsolute => exact .absolute (of_decide_eq_true habsolute)
  · next hrelative =>
    have hfirst : p.bytes.head? ≠ some slash := fun h => hrelative (decide_eq_true h)
    split
    · next hjoined => exact .joined hfirst (by simpa using hjoined)
    · next hparted =>
      rw [Bool.or_eq_true, not_or] at hparted
      exact .parted hfirst (by simpa using hparted.1) (by simpa using hparted.2)

/-- All paths of a list are joined to the directory, each in its place. -/
theorem Path.forall₂_seenFrom_join (dir : Path) (paths : List Path) :
    List.Forall₂ dir.SeenFrom paths (paths.map dir.join) := by
  rw [List.forall₂_map_right_iff, List.forall₂_same]
  exact fun p _ => dir.seenFrom_join p

/-! ### Arguments -/

/-- **The files of certificates that arguments ask for**: those that they name, or the usual three. -/
def Cli.ChainedArguments.files (a : ChainedArguments) : List Path :=
  if a.certs = [] then
    ["leaf_cert.pem", "intermediate_cert.pem", "root_cert.pem"].map Path.ofText
  else a.certs

/-- There is always a file: where none is named, there are the usual ones. -/
theorem Cli.ChainedArguments.files_ne_nil (a : ChainedArguments) : a.files ≠ [] := by
  unfold files
  split
  · simp
  · assumption

/-- **What arguments come to**, if their payload is not refused. -/
structure Cli.ChainedArguments.ComesTo (a : ChainedArguments) (o : Chained.Options) : Prop where
  /-- The payload is that of the text, or the usual one. -/
  payload : (∃ text, a.payload = some text ∧ Payload.read text = .ok o.payload) ∨
    (a.payload = none ∧ o.payload = .object [("cool", .bool false)])
  isObject : o.payload.isObject = true
  key : a.certDir.SeenFrom a.key o.key
  /-- Each file in its place. -/
  chain : List.Forall₂ a.certDir.SeenFrom a.files o.chain
  chain_ne : o.chain ≠ []

variable {a : ChainedArguments} {o : Chained.Options} {e : Error}

/-- **The only thing in arguments that may be refused is the payload.** -/
theorem chainedOptions_eq_error_iff :
    chainedOptions a = .error e ↔
      ∃ text, a.payload = some text ∧ Payload.read text = .error e := by
  unfold chainedOptions
  cases hpayload : a.payload with
  | none => simp [payloadOr, bind, Except.bind, pure, Except.pure]
  | some text =>
    cases hread : Payload.read text with
    | error cause => simp [payloadOr, hread, bind, Except.bind]
    | ok v => simp [payloadOr, hread, bind, Except.bind, pure, Except.pure]

/-- A payload is read from its text, or it is the usual one. -/
theorem payloadOr_eq_ok {usual v : Json.Value} {given : Option String}
    (h : payloadOr usual given = .ok v) :
    (∃ text, given = some text ∧ Payload.read text = .ok v) ∨ (given = none ∧ v = usual) := by
  cases given with
  | none => exact .inr ⟨rfl, (Except.ok.inj h).symm⟩
  | some text => exact .inl ⟨text, rfl, h⟩

/-- **What is asked for is what the arguments come to.** -/
theorem comesTo_of_chainedOptions (h : chainedOptions a = .ok o) : a.ComesTo o := by
  simp only [chainedOptions, bind_eq_ok, pure_eq_ok] at h
  obtain ⟨payload, hpayload, rfl⟩ := h
  -- both branches join the directory with each of the files
  have hchain : (if a.certs.isEmpty then (Chained.Options.inDir a.certDir).chain
      else a.certs.map a.certDir.join) = a.files.map a.certDir.join := by
    unfold Cli.ChainedArguments.files
    cases a.certs <;> rfl
  rw [hchain]
  have hcases := payloadOr_eq_ok hpayload
  refine ⟨hcases, ?_, a.certDir.seenFrom_join a.key, a.certDir.forall₂_seenFrom_join a.files, ?_⟩
  · -- an object in both cases: one that was checked, and the usual one
    rcases hcases with ⟨text, -, hread⟩ | ⟨-, rfl⟩
    · exact Payload.isObject_of_read hread
    · rfl
  · simpa using a.files_ne_nil

/-! ### How a command fails -/

/-- **The context and the error with which a command fails**: in what its arguments ask for, or when
that is built. -/
inductive FailsWith (env : Environment) (disk : Disk) (k : P256.Scalar) :
    Arguments → String → Error → Prop where
  | unencodedOptions {a : Cli.UnencodedArguments} {e : Error} :
    TokenForge.unencodedOptions env a = .error e → FailsWith env disk k (.unencoded a) "" e
  | chainedOptions {a : ChainedArguments} {e : Error} :
    TokenForge.chainedOptions a = .error e → FailsWith env disk k (.chained a) "" e
  | unencoded {a : Cli.UnencodedArguments} {o : Unencoded.Options} {e : Error} :
    TokenForge.unencodedOptions env a = .ok o → o.build.result = .error e →
      FailsWith env disk k (.unencoded a) "could not build b64:false token: " e
  | chained {a : ChainedArguments} {o : Chained.Options} {e : Error} :
    TokenForge.chainedOptions a = .ok o → (o.build disk k).result = .error e →
      FailsWith env disk k (.chained a) "could not build x5c token: " e

/-- **Whether an outcome complains of an error**, with a context in front of its wording. -/
def Outcome.ComplainsOf (o : Outcome) (context : String) (e : Error) : Prop :=
  o.complaint = "Error: " ++ context ++ e.message ++ "\n"

variable {env : Environment} {disk : Disk} {k : P256.Scalar} {words : List Bytes}
  {arguments : Arguments} {context : String}

/-- The context is one of those that a run may put in front. -/
theorem FailsWith.mem_contexts (h : FailsWith env disk k arguments context e) :
    context ∈ contexts := by
  cases h <;> simp [contexts]

/-- What is built complains of nothing, or of the error that it ends with. -/
theorem Outcome.complaint_ofLogged (filter : Log.Filter) (context : String)
    (built : Logged String) :
    (Outcome.ofLogged filter context built).complaint = "" ∨
      ∃ e, built.result = .error e ∧ (Outcome.ofLogged filter context built).ComplainsOf context e := by
  unfold Outcome.ofLogged
  cases built.result with
  | error e => exact .inr ⟨e, rfl, rfl⟩
  | ok token => exact .inl rfl

/-- **A run complains of nothing, or of what its command fails with.** -/
theorem complaint_cases (env : Environment) (disk : Disk) (k : P256.Scalar)
    (hread : Cli.read words = .ok arguments) :
    (run env disk k words).complaint = "" ∨ ∃ context e,
      FailsWith env disk k arguments context e ∧ (run env disk k words).ComplainsOf context e := by
  rw [run, hread]
  cases arguments with
  | unencoded a =>
    simp only [runUnencoded]
    cases hoptions : unencodedOptions env a with
    | error e => exact .inr ⟨"", e, .unencodedOptions hoptions, rfl⟩
    | ok o =>
      -- the event in front of the build leaves its result as it is
      refine (Outcome.complaint_ofLogged _ _ _).imp_right ?_
      rintro ⟨e, hresult, hcomplains⟩
      exact ⟨_, e, .unencoded hoptions hresult, hcomplains⟩
  | chained a =>
    simp only [runChained]
    cases hoptions : chainedOptions a with
    | error e => exact .inr ⟨"", e, .chainedOptions hoptions, rfl⟩
    | ok o =>
      refine (Outcome.complaint_ofLogged _ _ _).imp_right ?_
      rintro ⟨e, hresult, hcomplains⟩
      exact ⟨_, e, .chained hoptions hresult, hcomplains⟩

/-! ### What a complaint tells -/

/-- The first letter of the wording of an error. -/
def Error.initial : Error → Char
  | .payloadNotObject _ => 'p'
  | .emptySecret => 'H'
  | .variableNotSet _ | .notCertificate _ _ => 'e'
  | .emptyChain => 'x'
  | .invalidKey _ => 'i'
  | .invalidPayload _ | .unwritable _ _ | .certificateUnread _ _ | .certificateUndecoded _ _
  | .keyUnread _ _ | .unsigned _ => 'f'

/-- **The first letter of the wording** is known of every error. -/
theorem Error.head?_message (e : Error) : e.message.toList.head? = some e.initial := by
  unfold message initial
  cases e <;> simp

/-- Errors that are worded alike begin with the same letter. -/
theorem Error.initial_eq_of_message_eq {e cause : Error} (h : cause.message = e.message) :
    cause.initial = e.initial := by
  have hhead := congrArg (fun text => text.toList.head?) h
  simp only [Error.head?_message] at hhead
  exact Option.some.inj hhead

/-- No error begins like a context does. -/
theorem Error.initial_ne (e : Error) : e.initial ≠ 'c' := by
  unfold initial
  cases e <;> simp

/-- What has a context in front begins with the context. -/
theorem head?_wording (hcontext : context ∈ contexts) (e : Error) :
    (context ++ e.message).toList.head? = some (if context = "" then e.initial else 'c') := by
  simp only [contexts, List.mem_cons, List.not_mem_nil, or_false] at hcontext
  rcases hcontext with rfl | rfl | rfl
  · simp [Error.head?_message]
  · simp
  · simp

/-- **A complaint tells its context**, and the wording of its error. -/
theorem context_eq_of_wording_eq {own : String} {cause : Error} (hown : own ∈ contexts)
    (hcontext : context ∈ contexts) (h : own ++ cause.message = context ++ e.message) :
    own = context ∧ cause.message = e.message := by
  have hhead := congrArg (fun text => text.toList.head?) h
  simp only [head?_wording hown, head?_wording hcontext, Option.some.injEq] at hhead
  have hchars := congrArg String.toList h
  have heq : own = context := by
    simp only [contexts, List.mem_cons, List.not_mem_nil, or_false] at hown hcontext
    rcases hown with rfl | rfl | rfl
    -- without a context the first letter is that of the error
    · by_contra hne
      rw [if_pos rfl, if_neg (Ne.symm hne)] at hhead
      exact cause.initial_ne hhead
    · -- both contexts begin alike, but go on differently
      rcases hcontext with rfl | rfl | rfl
      · exact absurd hhead.symm e.initial_ne
      · rfl
      · simp at hchars
    · rcases hcontext with rfl | rfl | rfl
      · exact absurd hhead.symm e.initial_ne
      · simp at hchars
      · rfl
  subst heq
  exact ⟨rfl, (String.append_right_inj _).mp h⟩

/-- **What a run complains of is worded like the error of its command**, behind the same context. -/
theorem failsWith_of_complains (hread : Cli.read words = .ok arguments)
    (hcontext : context ∈ contexts) (h : (run env disk k words).ComplainsOf context e) :
    ∃ cause, FailsWith env disk k arguments context cause ∧ cause.initial = e.initial := by
  rcases complaint_cases env disk k hread with hnone | ⟨own, cause, hfails, hcomplains⟩
  · have hchars := congrArg String.toList (hnone.symm.trans h)
    simp at hchars
  · -- what stands around the wording is the same in both complaints
    have hwording : own ++ cause.message = context ++ e.message := by
      have hboth := hcomplains.symm.trans h
      rw [String.append_left_inj, String.append_assoc, String.append_assoc,
        String.append_right_inj] at hboth
      exact hboth
    obtain ⟨rfl, hmessage⟩ := context_eq_of_wording_eq hfails.mem_contexts hcontext hwording
    exact ⟨cause, hfails, Error.initial_eq_of_message_eq hmessage⟩

/-- A page begins with its first line. -/
theorem Cli.Help.head?_ofLines {line : String} {c : Char} (lines : List String)
    (h : line.toList.head? = some c) : (ofLines (line :: lines)).toList.head? = some c := by
  simp [ofLines, h]

/-- **A run without a command complains of no error.** -/
theorem not_complains_of_halt {halt : Halt} (hread : Cli.read words = .error halt)
    (context : String) (e : Error) : ¬(run env disk k words).ComplainsOf context e := by
  rw [run_of_halt hread]
  intro h
  have hchars := congrArg (fun text => text.toList.head?) h
  -- pages and misuses do not begin like an error of a command
  cases halt with
  | help scope isFull => simp [Outcome.ofHalt] at hchars
  | version => simp [Outcome.ofHalt] at hchars
  | noCommand =>
    have hpage : (Cli.Help.page .program false).toList.head? = some 'B' :=
      Cli.Help.head?_ofLines _ rfl
    simp [Outcome.ofHalt, hpage] at hchars
  | misuse m => simp [Outcome.ofHalt, Cli.Misuse.message] at hchars

/-! ### The errors that are left -/

/-- **An error of the options themselves**: a payload that is no object, or an empty chain. -/
def Error.IsOfOptions (e : Error) : Prop := (∃ kind, e = .payloadNotObject kind) ∨ e = .emptyChain

/-- **An error of the options is told by its first letter**, as no other error begins with it. -/
theorem Error.isOfOptions_of_initial (h : e.initial = 'p' ∨ e.initial = 'x') : e.IsOfOptions := by
  unfold initial at h
  cases e with
  | payloadNotObject kind => exact .inl ⟨kind, rfl⟩
  | emptyChain => exact .inr rfl
  | _ => simp at h

/-- A step finds no error of the options where they have none. -/
theorem Chained.Step.not_isOfOptions {step : Step} (hobj : o.payload.isObject = true)
    (hchain : o.chain ≠ []) (h : step.failure? disk o = some e) : ¬e.IsOfOptions := by
  rintro (⟨kind, rfl⟩ | rfl)
  all_goals
    unfold failure? at h
    -- only the two checks can find such an error, and both are passed
    cases step with
    | checkPayload => simp [hobj] at h
    | checkChain => simp [hchain] at h
    | _ =>
      dsimp only at h
      split at h <;> simp at h

/-- **What is built of an object and some files never fails for the options.** -/
theorem Chained.Options.errorsHave_build (hobj : o.payload.isObject = true) (hchain : o.chain ≠ [])
    (disk : Disk) (k : P256.Scalar) :
    ErrorsHave (fun e => ¬e.IsOfOptions) (o.build disk k).result := by
  intro e he
  -- the error is that of one of the steps
  rw [← error?_eq_some_iff, ← Options.findSome?_steps] at he
  obtain ⟨step, -, hstep⟩ := List.exists_of_findSome?_eq_some he
  exact step.not_isOfOptions hobj hchain hstep

/-- Any error but that of an empty chain. -/
def Error.IsOffChain (e : Error) : Prop := e ≠ .emptyChain

/-- The check of a payload knows of no chain. -/
theorem Payload.check_isOffChain (v : Json.Value) : ErrorsHave Error.IsOffChain (check v) := by
  unfold check
  split
  · exact errorsHave_ok _ _
  · exact errorsHave_error Error.noConfusion

/-- The reader of payloads knows of no chain. -/
theorem payloadOr_isOffChain (usual : Json.Value) (given : Option String) :
    ErrorsHave Error.IsOffChain (payloadOr usual given) := by
  cases given with
  | none => exact errorsHave_ok _ _
  | some text =>
    have hread : ErrorsHave Error.IsOffChain
        ((Json.read text).mapError fun fault => .invalidPayload fault.message) :=
      ErrorsHave.mapError fun _ _ => Error.noConfusion
    exact hread.bind fun v => (Payload.check_isOffChain v).bind fun _ => errorsHave_ok _ _

/-- The search for a secret knows of no chain. -/
theorem secretOr_isOffChain (env : Environment) (usual : String) (a : Cli.UnencodedArguments) :
    ErrorsHave Error.IsOffChain (secretOr env usual a) := by
  unfold secretOr
  split
  · exact errorsHave_ok _ _
  · split
    · exact errorsHave_ok _ _
    · exact errorsHave_error Error.noConfusion
  · exact errorsHave_ok _ _

/-- The build of a token without a chain knows of none. -/
theorem Unencoded.build_isOffChain (payload : Json.Value) (secret : String) :
    ErrorsHave Error.IsOffChain (build payload secret).result := by
  unfold build
  rw [Logged.result_bind]
  refine (Payload.check_isOffChain payload).bind fun _ => ?_
  split
  · exact errorsHave_error Error.noConfusion
  · exact errorsHave_ok _ _

/-- **No command fails for an empty chain.** -/
theorem FailsWith.isOffChain (h : FailsWith env disk k arguments context e) : e.IsOffChain := by
  -- by the place of the failure: only the build of a chain could find it empty, and there it is not
  cases h with
  | @unencodedOptions a e h =>
    have hoptions : ErrorsHave Error.IsOffChain (TokenForge.unencodedOptions env a) :=
      (payloadOr_isOffChain _ _).bind fun _ =>
        (secretOr_isOffChain env _ a).bind fun _ => errorsHave_ok _ _
    exact hoptions e h
  | @chainedOptions a e h =>
    have hoptions : ErrorsHave Error.IsOffChain (TokenForge.chainedOptions a) :=
      (payloadOr_isOffChain _ _).bind fun _ => errorsHave_ok _ _
    exact hoptions e h
  | unencoded _ hbuild => exact Unencoded.build_isOffChain _ _ e hbuild
  | chained hoptions hbuild =>
    have hcomes := comesTo_of_chainedOptions hoptions
    exact fun heq =>
      Chained.Options.errorsHave_build hcomes.isObject hcomes.chain_ne disk k e hbuild (.inr heq)

/-- **What is built of a chain does not fail for its payload.** -/
theorem FailsWith.not_isOfOptions
    (h : FailsWith env disk k arguments "could not build x5c token: " e) : ¬e.IsOfOptions := by
  generalize hcontext : "could not build x5c token: " = context at h
  -- the context leaves the build of a chain only
  cases h with
  | chained hoptions hbuild =>
    have hcomes := comesTo_of_chainedOptions hoptions
    exact Chained.Options.errorsHave_build hcomes.isObject hcomes.chain_ne disk k e hbuild
  | _ => exact absurd hcontext (by decide)

/-- **Where a command fails.** -/
theorem exists_failsWith (h : handled env disk k arguments = .error e) :
    ∃ context, FailsWith env disk k arguments context e := by
  cases arguments with
  | unencoded a =>
    simp only [handled] at h
    cases hoptions : unencodedOptions env a with
    | error cause =>
      rw [hoptions] at h
      obtain rfl : cause = e := Except.error.inj h
      exact ⟨_, .unencodedOptions hoptions⟩
    | ok o =>
      rw [hoptions] at h
      exact ⟨_, .unencoded hoptions h⟩
  | chained a =>
    simp only [handled] at h
    cases hoptions : chainedOptions a with
    | error cause =>
      rw [hoptions] at h
      obtain rfl : cause = e := Except.error.inj h
      exact ⟨_, .chainedOptions hoptions⟩
    | ok o =>
      rw [hoptions] at h
      exact ⟨_, .chained hoptions h⟩

/-- **What the arguments of a token with a chain come to.** They are refused exactly if their payload
is, with the same error; otherwise there is a payload that is an object, a key and a chain that is not
empty, each path seen from the directory of the files. So, whatever the command line and the files
are, no command fails for an empty chain, and no run complains of one, nor of a payload that is no
object when it builds a token with a chain. -/
theorem chainedOptions_resolves (a : ChainedArguments) :
    (∀ e, chainedOptions a = .error e ↔
      ∃ text, a.payload = some text ∧ Payload.read text = .error e) ∧
    (∀ o, chainedOptions a = .ok o → a.ComesTo o) ∧
    ∀ env disk k words,
      (∀ arguments, Cli.read words = .ok arguments →
        handled env disk k arguments ≠ .error .emptyChain) ∧
      (∀ context ∈ contexts, ¬(run env disk k words).ComplainsOf context .emptyChain) ∧
      ∀ kind, ¬(run env disk k words).ComplainsOf "could not build x5c token: "
        (.payloadNotObject kind) := by
  refine ⟨fun e => chainedOptions_eq_error_iff, fun o => comesTo_of_chainedOptions,
    fun env disk k words => ⟨fun arguments hread h => ?_, ?_⟩⟩
  · obtain ⟨context, hfails⟩ := exists_failsWith h
    exact hfails.isOffChain rfl
  -- without arguments there is no command that could fail
  cases hread : Cli.read words with
  | error halt =>
    exact ⟨fun context _ => not_complains_of_halt hread context _,
      fun kind => not_complains_of_halt hread _ _⟩
  | ok arguments =>
    constructor
    · -- the complaint may have the wording of another error, but not its first letter
      intro context hcontext h
      obtain ⟨cause, hfails, hinitial⟩ := failsWith_of_complains hread hcontext h
      rcases Error.isOfOptions_of_initial (.inr hinitial) with ⟨kind, rfl⟩ | rfl
      · exact absurd hinitial (by simp [Error.initial])
      · exact hfails.isOffChain rfl
    · -- the same letter, and the context of a build with a chain
      intro kind h
      obtain ⟨cause, hfails, hinitial⟩ := failsWith_of_complains hread (by simp [contexts]) h
      exact hfails.not_isOfOptions (Error.isOfOptions_of_initial (.inl hinitial))

/-- Arguments with a payload, a key and two certificates, one of them by an absolute path. -/
def rooted : ChainedArguments where
  payload := some "\x7b\"a\":1\x7d"
  certDir := Path.ofText "certs"
  key := Path.ofText "key.pem"
  certs := [Path.ofText "leaf.pem", Path.ofText "/ca/root.pem"]

def rootedOptions : Chained.Options where
  payload := .object [("a", .ofWhole { val := 1 })]
  key := Path.ofText "certs/key.pem"
  chain := [Path.ofText "certs/leaf.pem", Path.ofText "/ca/root.pem"]

theorem chainedOptions_resolves_rooted :
    chainedOptions rooted = .ok rootedOptions ∧ rooted.ComesTo rootedOptions ∧
      "" ∈ contexts ∧
      ∀ env disk k, ¬(run env disk k [utf8 "x5c"]).ComplainsOf "" .emptyChain := by
  have hoptions : chainedOptions rooted = .ok rootedOptions := rfl
  have hempty : "" ∈ contexts := by decide
  exact ⟨hoptions, (chainedOptions_resolves rooted).2.1 _ hoptions, hempty,
    fun env disk k => ((chainedOptions_resolves rooted).2.2 env disk k _).2.1 _ hempty⟩

end TokenForge
