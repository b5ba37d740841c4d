import TokenForge.Proofs.Except
import TokenForge.Proofs.Token.Framing
import TokenForge.Run

/-!
# The secret stays out of the diagnostics

Two runs that differ in the secret alone are followed side by side: through the options, the events
and the token. They leave the same behind, but for the signature at the end of the token
(`run_secret`). What the payload says does not matter, so it may say the secret itself.

* `DifferInSecret` — two commands, each in its environment, that differ in the secret alone;
* `AlikeToLastDot`, `Outcome.Alike` — texts and outcomes that differ in a signature at most;
* `run_secret` — two such commands have such outcomes, and the same dumps.
-/

namespace TokenForge

open Cli (UnencodedArguments)

/-- **Two commands, each in its environment, that differ in the secret alone.** The secret is given,
or it is in a variable; a secret is a text, and a variable whose bytes are no text counts as not set.
Of the rest of the environments only the filter has to be the same, so the variable of the secret is
not that of the filter. -/
inductive DifferInSecret (s t : String) :
    Environment → UnencodedArguments → Environment → UnencodedArguments → Prop where
  | given (env : Environment) (a : UnencodedArguments) :
    DifferInSecret s t env { a with secret := some s } env { a with secret := some t }
  | named {env other : Environment} {a : UnencodedArguments} {name : String} :
    a.secret = none → a.secretEnv = some name → env.text? name = some s →
      other.text? name = some t →
        env (utf8 filterVariable) = other (utf8 filterVariable) →
          DifferInSecret s t env a other a

/-- **Two texts that differ behind their last dot at most.** -/
def AlikeToLastDot (text other : String) : Prop :=
  text = other ∨ ∃ front last otherLast : List Char, '.' ∉ last ∧ '.' ∉ otherLast ∧
    text.toList = front ++ '.' :: last ∧ other.toList = front ++ '.' :: otherLast

/-- **Two outcomes that differ in a signature at most.** -/
structure Outcome.Alike (o other : Outcome) : Prop where
  exit : o.exit = other.exit
  events : o.events = other.events
  complaint : o.complaint = other.complaint
  output : AlikeToLastDot o.output other.output

variable {env other : Environment} {a b : UnencodedArguments} {s t : String}

/-! ### What the commands ask for -/

/-- Each of two such commands has its own secret. -/
theorem DifferInSecret.secretOr_eq (h : DifferInSecret s t env a other b) (usual : String) :
    secretOr env usual a = .ok s ∧ secretOr other usual b = .ok t := by
  cases h with
  | given => exact ⟨rfl, rfl⟩
  | named hsecret hname henv hother hfilter =>
    constructor
    · simp [secretOr, hsecret, hname, henv]
    · simp [secretOr, hsecret, hname, hother]

/-- The payload is the same. -/
theorem DifferInSecret.payload_eq (h : DifferInSecret s t env a other b) :
    a.payload = b.payload := by
  cases h <;> rfl

/-- **The dumps of the arguments are the same.** -/
theorem DifferInSecret.dump_eq (h : DifferInSecret s t env a other b) : a.dump = b.dump := by
  cases h <;> rfl

/-- The filter of the events is the same. -/
theorem DifferInSecret.filter_eq (h : DifferInSecret s t env a other b) :
    env (utf8 filterVariable) = other (utf8 filterVariable) := by
  cases h with
  | given => rfl
  | named _ _ _ _ hfilter => exact hfilter

/-- **The options are the same but for the secret**, or the payload ends both in one error. -/
theorem DifferInSecret.options_cases (h : DifferInSecret s t env a other b) :
    (∃ e, unencodedOptions env a = .error e ∧ unencodedOptions other b = .error e) ∨
      ∃ payload, unencodedOptions env a = .ok ⟨payload, s⟩ ∧
        unencodedOptions other b = .ok ⟨payload, t⟩ := by
  obtain ⟨hs, ht⟩ := h.secretOr_eq ({} : Unencoded.Options).secret
  simp only [unencodedOptions, h.payload_eq, hs, ht]
  -- the payload is looked at first, and in the same way for both
  cases payloadOr ({} : Unencoded.Options).payload b.payload with
  | error e => exact .inl ⟨e, rfl, rfl⟩
  | ok payload => exact .inr ⟨payload, rfl, rfl⟩

/-! ### What comes of them -/

namespace Unencoded

variable {payload : Json.Value}

/-- **What is built with a secret that is not empty**: a check of the payload and one event, before
the secret is made use of. -/
theorem build_of_ne_empty (hs : s ≠ "") : build payload s = (do
    Logged.of (Payload.check payload)
    Logged.emit (signedEvent (signingInput payload))
    return signed payload s) := by
  have hempty : ¬s.isEmpty = true := by simpa using hs
  simp only [build, if_neg hempty, signed]

/-- **The events are the same**, as the one of the signature shows what is signed and not the key.
-/
theorem events_build_eq (hs : s ≠ "") (ht : t ≠ "") :
    (build payload s).events = (build payload t).events := by
  simp only [build_of_ne_empty hs, build_of_ne_empty ht, Logged.events_bind, Logged.events_of,
    Logged.result_of, Logged.events_emit, Logged.result_emit, Logged.events_pure]

/-- What is built is the signed payload, if it is an object. -/
theorem result_build_of_ne_empty (hs : s ≠ "") :
    (build payload s).result = (Payload.check payload).map fun _ => signed payload s := by
  rw [build_of_ne_empty hs]
  cases Payload.check payload <;>
    simp [Logged.result_bind, Except.bind, Except.map]

/-- The line of a token is what was signed, the last dot and the signature. -/
theorem toList_signed_line (payload : Json.Value) (secret : String) :
    (signed payload secret ++ "\n").toList = (signingInput payload).toList ++
      '.' :: ((signature secret (signingInput payload)).toList ++ ['\n']) := by
  have hend : "\n".toList = ['\n'] := rfl
  rw [String.toList_append, toList_signed, hend, List.append_assoc, List.cons_append]

/-- **Tokens with two secrets differ behind their last dot at most.** -/
theorem alikeToLastDot_signed (payload : Json.Value) (s t : String) :
    AlikeToLastDot (signed payload s ++ "\n") (signed payload t ++ "\n") := by
  -- no signature has a dot in it
  have hline (secret : String) :
      '.' ∉ (signature secret (signingInput payload)).toList ++ ['\n'] := by
    rw [List.mem_append, not_or]
    exact ⟨dot_not_mem_base64Url _, by decide⟩
  exact .inr ⟨_, _, _, hline s, hline t, toList_signed_line payload s, toList_signed_line payload t⟩

end Unencoded

/-- Computations with the same events have alike outcomes if the tokens are alike. -/
theorem Outcome.Alike.ofLogged {x y : Logged String} (hevents : x.events = y.events)
    (hresult : (∃ e, x.result = .error e ∧ y.result = .error e) ∨ ∃ token otherToken,
      x.result = .ok token ∧ y.result = .ok otherToken ∧
        AlikeToLastDot (token ++ "\n") (otherToken ++ "\n"))
    (filter : Log.Filter) (context : String) :
    (Outcome.ofLogged filter context x).Alike (.ofLogged filter context y) := by
  rcases hresult with ⟨e, hx, hy⟩ | ⟨token, otherToken, hx, hy, htokens⟩
  · simp only [Outcome.ofLogged, hx, hy, hevents]
    exact ⟨rfl, rfl, rfl, .inl rfl⟩
  · simp only [Outcome.ofLogged, hx, hy, hevents]
    exact ⟨rfl, rfl, rfl, htokens⟩

/-- **Two commands that differ in the secret alone have alike outcomes.** -/
theorem DifferInSecret.runUnencoded_alike (h : DifferInSecret s t env a other b) (hs : s ≠ "")
    (ht : t ≠ "") (filter : Log.Filter) :
    (runUnencoded env filter a).Alike (runUnencoded other filter b) := by
  -- both fail for the payload, or both build
  rcases h.options_cases with ⟨e, henv, hother⟩ | ⟨payload, henv, hother⟩
  · rw [runUnencoded, runUnencoded, henv, hother]
    exact ⟨rfl, rfl, rfl, .inl rfl⟩
  · rw [runUnencoded, runUnencoded, henv, hother]
    refine .ofLogged ?_ ?_ filter _
    -- the event before the build shows the options, and these do not show the secret
    · have hbuild : (Unencoded.build payload s).events = (Unencoded.build payload t).events :=
        Unencoded.events_build_eq hs ht
      exact congrArg (unencodedEvent ⟨payload, s⟩ :: ·) hbuild
    · -- the payload is checked alike, and only then the secret is made use of
      have hx : (Unencoded.build payload s).result = _ := Unencoded.result_build_of_ne_empty hs
      have hy : (Unencoded.build payload t).result = _ := Unencoded.result_build_of_ne_empty ht
      cases hcheck : Payload.check payload with
      | error e =>
        rw [hcheck] at hx hy
        exact .inl ⟨e, hx, hy⟩
      | ok _ =>
        rw [hcheck] at hx hy
        exact .inr ⟨_, _, hx, hy, Unencoded.alikeToLastDot_signed payload s t⟩

/-- **The secret stays out of the diagnostics.** Two command lines whose commands differ in the
secret alone, and both have one, leave the same diagnostics and end alike; the commands and their
options have the same dumps, and the outputs differ behind their last dot at most. -/
theorem run_secret {words otherWords : List Bytes} (hdiffer : DifferInSecret s t env a other b)
    (hwords : Cli.read words = .ok (.unencoded a))
    (hotherWords : Cli.read otherWords = .ok (.unencoded b)) (hs : s ≠ "") (ht : t ≠ "")
    (disk otherDisk : Disk) (k otherNonce : P256.Scalar) :
    (run env disk k words).events = (run other otherDisk otherNonce otherWords).events ∧
    (∀ stamp, (run env disk k words).diagnostics stamp =
      (run other otherDisk otherNonce otherWords).diagnostics stamp) ∧
    (run env disk k words).exit = (run other otherDisk otherNonce otherWords).exit ∧
    a.dump = b.dump ∧
    (unencodedOptions env a).map Unencoded.Options.dump =
      (unencodedOptions other b).map Unencoded.Options.dump ∧
    AlikeToLastDot (run env disk k words).output
      (run other otherDisk otherNonce otherWords).output := by
  have hrun : run env disk k words =
      runUnencoded env (.ofVariable (env (utf8 filterVariable))) a := by
    rw [run, hwords]
  -- the filter is that of the other environment, which is the same
  have hotherRun : run other otherDisk otherNonce otherWords =
      runUnencoded other (.ofVariable (env (utf8 filterVariable))) b := by
    rw [run, hotherWords, hdiffer.filter_eq]
  have halike := hdiffer.runUnencoded_alike hs ht (.ofVariable (env (utf8 filterVariable)))
  rw [← hrun, ← hotherRun] at halike
  refine ⟨halike.events, fun stamp => ?_, halike.exit, hdiffer.dump_eq, ?_, halike.output⟩
  · rw [Outcome.diagnostics, Outcome.diagnostics, halike.events, halike.complaint]
  · -- the dumps of the options show no secret, be they there or not
    rcases hdiffer.options_cases with ⟨e, henv, hother⟩ | ⟨payload, henv, hother⟩
    · rw [henv, hother]
    · rw [henv, hother]
      rfl

/-- An environment with a filter that shows everything, and a secret. -/
def tracing (secret : String) : Environment :=
  .ofEntries [(utf8 "KEY", utf8 secret), (utf8 filterVariable, utf8 "trace")]

def keyed : UnencodedArguments where
  secretEnv := some "KEY"

theorem run_secret_traced :
    Cli.read [utf8 "b64-false", utf8 "--secret-env", utf8 "KEY"] = .ok (.unencoded keyed) ∧
      DifferInSecret "a" "b" (tracing "a") keyed (tracing "b") keyed ∧ "a" ≠ "" ∧ "b" ≠ "" ∧
      ∀ stamp disk k,
        (run (tracing "a") disk k [utf8 "b64-false", utf8 "--secret-env", utf8 "KEY"]).diagnostics
            stamp =
          (run (tracing "b") disk k [utf8 "b64-false", utf8 "--secret-env", utf8 "KEY"]).diagnostics
            stamp := by
  have hread : Cli.read [utf8 "b64-false", utf8 "--secret-env", utf8 "KEY"] =
      .ok (.unencoded keyed) :=
    toOption_eq_some.mp (by decide +kernel)
  have hdiffer : DifferInSecret "a" "b" (tracing "a") keyed (tracing "b") keyed :=
    .named rfl rfl (by decide) (by decide) (by decide)
  refine ⟨hread, hdiffer, by decide, by decide, fun stamp disk k => ?_⟩
  exact (run_secret hdiffer hread hread (by decide) (by decide) disk disk k k).2.1 stamp

end TokenForge
