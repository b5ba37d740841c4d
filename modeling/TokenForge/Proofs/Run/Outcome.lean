import TokenForge.Proofs.Text.Plain
import TokenForge.Proofs.Token.Framing
import TokenForge.Proofs.Token.Order
import TokenForge.Run

/-!
# How runs end

A run prints a token and nothing else, or the page that was asked for, or it fails and prints
nothing. Which of these it is, and what is printed, is decided by the command line and by what comes
of the command; the filter of the events has no part in it.

* `handled` — what comes of a command: a token, or the error that there is none;
* `Outcome.Concludes` — the outcome that belongs to it, and `run_concludes`;
* `Ending`, `Ends` — the three ways to end;
* `run_ends_once` — every run ends in one of them.
-/

namespace TokenForge

open Cli (Arguments Halt)

/-! ### What comes of a command -/

/-- **What comes of a command**: what its arguments ask for is found out, and then it is built. -/
def handled (env : Environment) (disk : Disk) (k : P256.Scalar) : Arguments → Except Error String
  | .unencoded a => (unencodedOptions env a).bind fun o => o.build.result
  | .chained a => (chainedOptions a).bind fun o => (o.build disk k).result

/-- What may stand in front of the wording of an error. -/
def contexts : List String :=
  ["", "could not build b64:false token: ", "could not build x5c token: "]

/-- **The outcome that belongs to a token**, or to the error that there is none. -/
def Outcome.Concludes (o : Outcome) : Except Error String → Prop
  | .ok token => o.exit = 0 ∧ o.output = token ++ "\n" ∧ o.complaint = ""
  | .error e => o.exit = 1 ∧ o.output = "" ∧
      ∃ context ∈ contexts, o.complaint = "Error: " ++ context ++ e.message ++ "\n"

variable {env other : Environment} {disk : Disk} {k : P256.Scalar} {words : List Bytes}
  {arguments : Arguments} {text : String}

/-- An error is concluded by its wording, behind one of the contexts. -/
theorem Outcome.concludes_ofError {context : String} (hcontext : context ∈ contexts) (e : Error) :
    (Outcome.ofError context e).Concludes (.error e) :=
  ⟨rfl, rfl, context, hcontext, rfl⟩

/-- What is built is printed, or its error is said; the events play no part. -/
theorem Outcome.concludes_ofLogged {context : String} (hcontext : context ∈ contexts)
    (filter : Log.Filter) (built : Logged String) :
    (Outcome.ofLogged filter context built).Concludes built.result := by
  unfold Outcome.ofLogged
  cases built.result with
  | error e => exact concludes_ofError hcontext e
  | ok token => exact ⟨rfl, rfl, rfl⟩

/-- What a result leaves open is only which context stands in front of its error. -/
theorem Outcome.Concludes.same {o other : Outcome} {r : Except Error String} (h : o.Concludes r)
    (hother : other.Concludes r) : other.exit = o.exit ∧ other.output = o.output := by
  cases r with
  | ok token => exact ⟨hother.1.trans h.1.symm, hother.2.1.trans h.2.1.symm⟩
  | error e => exact ⟨hother.1.trans h.1.symm, hother.2.1.trans h.2.1.symm⟩

/-- **A run concludes what comes of its command.** -/
theorem run_concludes (env : Environment) (disk : Disk) (k : P256.Scalar)
    (hread : Cli.read words = .ok arguments) :
    (run env disk k words).Concludes (handled env disk k arguments) := by
  rw [run, hread]
  cases arguments with
  | unencoded a =>
    simp only [runUnencoded, handled]
    -- the options may fail, and else what is built of them is concluded
    cases unencodedOptions env a with
    | error e => exact Outcome.concludes_ofError (by simp [contexts]) e
    | ok o => exact Outcome.concludes_ofLogged (by simp [contexts]) _ _
  | chained a =>
    simp only [runChained, handled]
    cases chainedOptions a with
    | error e => exact Outcome.concludes_ofError (by simp [contexts]) e
    | ok o => exact Outcome.concludes_ofLogged (by simp [contexts]) _ _

/-! ### Tokens -/

open Text

/-- **A token that is not encoded has no control character**: its segments are base64 but for the
payload, which is a compact text. -/
theorem Unencoded.isPlain_signed (payload : Json.Value) (secret : String) :
    IsPlain (signed payload secret).toList := by
  have hsegment (bs : Bytes) : IsPlain (base64Url bs).toList := by
    rw [base64Url, String.toList_ofList]
    exact isPlain_encode bs
  have hpayload : IsPlain payload.compact.toList := by
    rw [Json.Value.compact, String.toList_ofList]
    exact Json.isPlain_chars payload
  have hsignature : IsPlain (signature secret (signingInput payload)).toList := hsegment _
  -- the dots between them are plain as well
  rw [toList_signed, toList_signingInput]
  simp [hsegment, hpayload, hsignature]

/-- A token with a chain is made of segments in base64. -/
theorem Chained.isPlain_token (payload : Json.Value) (chain : List String) (sig : Bytes) :
    IsPlain (token payload chain sig).toList := by
  simp [token, toList_signingInput, Unencoded.base64Url, segment, isPlain_encode]

/-- What is built of some files differs in its signature at most, whatever the nonce. -/
theorem Chained.Options.result_build_cases (disk : Disk) (o : Chained.Options) :
    (∃ e, ∀ k, (o.build disk k).result = .error e) ∨
      ∃ (chain : List String) (sig : P256.Scalar → Bytes),
        ∀ k, (o.build disk k).result = .ok (Chained.token o.payload chain (sig k)) := by
  -- step by step in the order of the build; only the last one has a nonce
  simp only [Options.result_build, Chained.result_build]
  cases (Certificate.loadChain disk o.chain).result with
  | error e => exact .inl ⟨e, fun _ => rfl⟩
  | ok chain =>
    cases Chained.keyText disk o.key with
    | error e => exact .inl ⟨e, fun _ => rfl⟩
    | ok text =>
      cases hcheck : Payload.check o.payload with
      | error e => exact .inl ⟨e, fun _ => rfl⟩
      | ok _ =>
        by_cases hchain : chain = []
        · exact .inl ⟨.emptyChain, fun _ => by simp [Except.bind, hchain]⟩
        · cases hkey : Key.read text with
          | error fault =>
            exact .inl ⟨.invalidKey fault.message,
              fun _ => by simp [Except.bind, Except.mapError, Except.map, hchain, hkey]⟩
          | ok d =>
            exact .inr ⟨chain, fun k => (P256.sign d k (utf8 (signingInput o.payload chain))).bytes,
              fun _ => by simp [Except.bind, Except.mapError, Except.map, hchain, hkey]⟩

/-- **What is built has no control character**, a line feed least of all. -/
theorem isPlain_of_handled (h : handled env disk k arguments = .ok text) : IsPlain text.toList := by
  cases arguments with
  | unencoded a =>
    obtain ⟨o, -, hbuild⟩ := bind_eq_ok.mp h
    obtain ⟨-, -, rfl⟩ := Unencoded.result_build_eq_ok_iff.mp hbuild
    exact Unencoded.isPlain_signed o.payload o.secret
  | chained a =>
    obtain ⟨o, -, hbuild⟩ := bind_eq_ok.mp h
    rcases Chained.Options.result_build_cases disk o with ⟨e, herror⟩ | ⟨chain, sig, hok⟩
    · rw [herror] at hbuild
      cases hbuild
    · rw [hok, Except.ok.injEq] at hbuild
      rw [← hbuild]
      exact Chained.isPlain_token o.payload chain (sig k)

/-! ### Other environments and other nonces -/

/-- **Two environments with the same variables**, but for that of the filter. -/
def SameButFilter (env other : Environment) : Prop :=
  ∀ name, name ≠ utf8 filterVariable → env name = other name

/-- A command whose secret is not in the variable of the filter. -/
def ReadsNoFilter : Arguments → Prop
  | .unencoded a => a.secretEnv ≠ some filterVariable
  | .chained _ => True

theorem utf8_injective : Function.Injective utf8 := by
  intro s t h
  exact String.toList_injective (Utf8.encode_injective h)

/-- **The filter has no part in what comes of a command.** -/
theorem handled_eq_of_sameButFilter (h : SameButFilter env other) (hreads : ReadsNoFilter arguments) :
    handled env disk k arguments = handled other disk k arguments := by
  cases arguments with
  | chained a => rfl
  | unencoded a =>
    -- only the secret is looked up in the environment, if it is not given and a variable is named
    have hsecret (usual : String) : secretOr env usual a = secretOr other usual a := by
      unfold secretOr
      cases a.secret with
      | some s => rfl
      | none =>
        cases hname : a.secretEnv with
        | none => rfl
        | some name =>
          -- the environments agree on bytes, the command names a text
          have hvariable : utf8 name ≠ utf8 filterVariable := by
            intro heq
            exact hreads (by rw [hname, utf8_injective heq])
          simp only [Environment.text?, h _ hvariable]
    simp only [handled, unencodedOptions, hsecret]

/-- Two results that differ in the signature of a token with a chain at most. -/
def AlikeButSignature (r other : Except Error String) : Prop :=
  r = other ∨ ∃ (payload : Json.Value) (chain : List String) (sig otherSig : Bytes),
    r = .ok (Chained.token payload chain sig) ∧ other = .ok (Chained.token payload chain otherSig)

/-- **The nonce has its part in the signature alone.** -/
theorem handled_alike (env : Environment) (disk : Disk) (k otherNonce : P256.Scalar)
    (arguments : Arguments) :
    AlikeButSignature (handled env disk k arguments) (handled env disk otherNonce arguments) := by
  cases arguments with
  | unencoded a =>
    left
    simp only [handled]
  | chained a =>
    simp only [handled]
    cases chainedOptions a with
    | error e =>
      left
      simp only [Except.bind]
    | ok o =>
      rcases Chained.Options.result_build_cases disk o with ⟨e, herror⟩ | ⟨chain, sig, hok⟩
      · exact .inl ((herror k).trans (herror otherNonce).symm)
      · -- with the same files and another nonce the token has another signature at most
        exact .inr ⟨o.payload, chain, sig k, sig otherNonce, hok k, hok otherNonce⟩

/-! ### Endings -/

/-- **How a run can end.** -/
inductive Ending where
  /-- A token is printed. -/
  | token
  /-- The page that was asked for is printed. -/
  | page
  /-- Nothing is printed. -/
  | failure
  deriving DecidableEq, Repr

/-- What is printed for a command line that asks for it. -/
inductive Asks : Halt → String → Prop where
  | help (scope : Cli.Scope) (isFull : Bool) : Asks (.help scope isFull) (Cli.Help.page scope isFull)
  | version : Asks .version Cli.Help.version

/-- **Whether a run ends in a way.** -/
def Ends (env : Environment) (disk : Disk) (k : P256.Scalar) (words : List Bytes) : Ending → Prop
  | .token => (run env disk k words).exit = 0 ∧ ∃ arguments text,
      Cli.read words = .ok arguments ∧ handled env disk k arguments = .ok text ∧
        '\n' ∉ text.toList ∧ (run env disk k words).output = text ++ "\n"
  | .page => (run env disk k words).exit = 0 ∧ ∃ halt, Cli.read words = .error halt ∧
      Asks halt (run env disk k words).output
  | .failure => (run env disk k words).exit ≠ 0 ∧ (run env disk k words).output = ""

/-- A command line that makes no arguments is the end of the run. -/
theorem run_of_halt {halt : Halt} (hread : Cli.read words = .error halt) :
    run env disk k words = .ofHalt halt := by
  rw [run, hread]

/-- **Every run ends in one of the ways.** -/
theorem exists_ends (env : Environment) (disk : Disk) (k : P256.Scalar) (words : List Bytes) :
    ∃ ending, Ends env disk k words ending := by
  cases hread : Cli.read words with
  | error halt =>
    have hrun : run env disk k words = .ofHalt halt := run_of_halt hread
    cases halt with
    | help scope isFull =>
      refine ⟨.page, by rw [hrun]; rfl, _, hread, ?_⟩
      rw [hrun]
      exact .help scope isFull
    | version =>
      refine ⟨.page, by rw [hrun]; rfl, _, hread, ?_⟩
      rw [hrun]
      exact .version
    | noCommand => exact ⟨.failure, by rw [hrun]; decide, by rw [hrun]; rfl⟩
    | misuse m => exact ⟨.failure, by rw [hrun]; exact Nat.succ_ne_zero 1, by rw [hrun]; rfl⟩
  -- past the command line the ending is that of the command, and no page is left to ask for
  | ok arguments =>
    have hconcludes := run_concludes env disk k hread
    cases hhandled : handled env disk k arguments with
    | error e =>
      rw [hhandled] at hconcludes
      exact ⟨.failure, by rw [hconcludes.1]; decide, hconcludes.2.1⟩
    | ok text =>
      rw [hhandled] at hconcludes
      exact ⟨.token, hconcludes.1, arguments, text, hread, hhandled,
        (isPlain_of_handled hhandled).lf_not_mem, hconcludes.2.1⟩

/-- **A run ends in one way only.** -/
theorem Ends.unique {first second : Ending} (hfirst : Ends env disk k words first)
    (hsecond : Ends env disk k words second) : first = second := by
  -- a token and a page both exit with 0, so it is the command line that tells them apart
  have hapart (hok : ∃ arguments, Cli.read words = .ok arguments)
      (herror : ∃ halt, Cli.read words = .error halt) : False := by
    obtain ⟨arguments, hok⟩ := hok
    obtain ⟨halt, herror⟩ := herror
    rw [hok] at herror
    cases herror
  -- a failure does not exit with 0, and the other two ways are told apart by the command line
  cases first with
  | token =>
    obtain ⟨hexit, arguments, -, hread, -⟩ := hfirst
    cases second with
    | token => rfl
    | page => exact (hapart ⟨arguments, hread⟩ (hsecond.2.imp fun _ h => h.1)).elim
    | failure => exact absurd hexit hsecond.1
  | page =>
    obtain ⟨hexit, halt, hread, -⟩ := hfirst
    cases second with
    | token =>
      obtain ⟨-, arguments, -, hok, -⟩ := hsecond
      exact (hapart ⟨arguments, hok⟩ ⟨halt, hread⟩).elim
    | page => rfl
    | failure => exact absurd hexit hsecond.1
  | failure =>
    cases second with
    | token => exact absurd hsecond.1 hfirst.1
    | page => exact absurd hsecond.1 hfirst.1
    | failure => rfl

/-- **What a run that failed exits with**: with 2 if the command line makes no arguments, with 1 if
nothing was built. -/
theorem Ends.exit_of_failure (h : Ends env disk k words .failure) :
    ((run env disk k words).exit = 2 ↔ ∃ halt, Cli.read words = .error halt) ∧
    ((run env disk k words).exit = 1 ↔ ∃ arguments e, Cli.read words = .ok arguments ∧
      handled env disk k arguments = .error e) := by
  obtain ⟨hexit, -⟩ := h
  cases hread : Cli.read words with
  | error halt =>
    rw [run_of_halt hread] at hexit ⊢
    -- pages that were asked for exit with 0, so they are no failures
    have htwo : (Outcome.ofHalt halt).exit = 2 := by
      cases halt with
      | help scope isFull => exact absurd rfl hexit
      | version => exact absurd rfl hexit
      | noCommand => rfl
      | misuse m => rfl
    simp [htwo]
  | ok arguments =>
    -- a command that fails exits with 1, and one that does not is no failure
    have hconcludes := run_concludes env disk k hread
    cases hhandled : handled env disk k arguments with
    | error e =>
      rw [hhandled] at hconcludes
      simp [hconcludes.1, hhandled]
    | ok text =>
      rw [hhandled] at hconcludes
      exact absurd hconcludes.1 hexit

/-- **A run depends on the nonce in the signature alone**, and on the filter in nothing that is
printed. -/
theorem run_alike {otherNonce : P256.Scalar} (henv : SameButFilter env other)
    (hreads : ∀ arguments, Cli.read words = .ok arguments → ReadsNoFilter arguments) :
    (run other disk otherNonce words).exit = (run env disk k words).exit ∧
    (otherNonce = k → (run other disk otherNonce words).output = (run env disk k words).output) ∧
    ((run other disk otherNonce words).output = (run env disk k words).output ∨
      ∃ (payload : Json.Value) (chain : List String) (sig otherSig : Bytes),
        (run other disk otherNonce words).output = Chained.token payload chain otherSig ++ "\n" ∧
        (run env disk k words).output = Chained.token payload chain sig ++ "\n") := by
  cases hread : Cli.read words with
  | error halt =>
    rw [run_of_halt hread, run_of_halt hread]
    exact ⟨rfl, fun _ => rfl, .inl rfl⟩
  | ok arguments =>
    -- both runs conclude what comes of the same command
    have hown := run_concludes env disk k hread
    have hother := run_concludes other disk otherNonce hread
    rw [← handled_eq_of_sameButFilter henv (hreads arguments hread)] at hother
    rcases handled_alike env disk k otherNonce arguments with
      heq | ⟨payload, chain, sig, otherSig, hk, hotherNonce⟩
    · rw [← heq] at hother
      obtain ⟨hexit, houtput⟩ := hown.same hother
      exact ⟨hexit, fun _ => houtput, .inl houtput⟩
    -- a token with a chain is built of both, and the signatures differ unless the nonces are one
    · rw [hk] at hown
      rw [hotherNonce] at hother
      refine ⟨hother.1.trans hown.1.symm, ?_, .inr ⟨payload, chain, sig, otherSig, hother.2.1, hown.2.1⟩⟩
      rintro rfl
      rw [hk, Except.ok.injEq] at hotherNonce
      rw [hother.2.1, hown.2.1, hotherNonce]

/-- **Every run ends in one of three ways**: it exits with 0 and prints the token that was built, on
a line of its own, or the page that was asked for; or it prints nothing and exits with 2 if the
command line makes no arguments and with 1 if no token was built. The filter of the events changes
nothing of this, unless it is the secret, and a nonce changes the signature alone. -/
theorem run_ends_once (env : Environment) (disk : Disk) (k : P256.Scalar) (words : List Bytes) :
    (∃! ending, Ends env disk k words ending) ∧
    (Ends env disk k words .failure →
      ((run env disk k words).exit = 2 ↔ ∃ halt, Cli.read words = .error halt) ∧
      ((run env disk k words).exit = 1 ↔ ∃ arguments e, Cli.read words = .ok arguments ∧
        handled env disk k arguments = .error e)) ∧
    ∀ other otherNonce, SameButFilter env other →
      (∀ arguments, Cli.read words = .ok arguments → ReadsNoFilter arguments) →
        (run other disk otherNonce words).exit = (run env disk k words).exit ∧
        (otherNonce = k →
          (run other disk otherNonce words).output = (run env disk k words).output) ∧
        ((run other disk otherNonce words).output = (run env disk k words).output ∨
          ∃ (payload : Json.Value) (chain : List String) (sig otherSig : Bytes),
            (run other disk otherNonce words).output =
              Chained.token payload chain otherSig ++ "\n" ∧
            (run env disk k words).output = Chained.token payload chain sig ++ "\n") := by
  obtain ⟨ending, hends⟩ := exists_ends env disk k words
  exact ⟨⟨ending, hends, fun _ h => h.unique hends⟩, Ends.exit_of_failure,
    fun _ _ henv hreads => run_alike henv hreads⟩

end TokenForge
