import Mathlib.Data.List.Forall2
import TokenForge.Proofs.Except
import TokenForge.Proofs.Token.Chain

/-!
# In which order a token of files fails

What is done for a token of files is a row of steps: three for each certificate, in the order of the
chain, and four for the key, the payload and the chain as a whole. The error is that of the first
step in the row that fails, so nothing behind a bad certificate hides it; and if no step fails, there
is a token with all the certificates (`Chained.Options.build_order`).

* `Chained.Step`, `Chained.Options.steps` — the steps and their row;
* `Chained.Step.failure?` — the error that a step finds;
* `Certificate.loadChain_eq_ok_iff` — the certificates of a chain, one for each file;
* `Certificate.loadChain_eq_error` — the first bad certificate ends the reading.
-/

namespace TokenForge

/-! ### The certificates of a chain -/

namespace Certificate

variable {disk : Disk} {path : Path} {paths before after : List Path} {bodies : List String}
  {e : Error}

/-- A certificate is loaded as it is in its file; the events play no part. -/
theorem result_load (disk : Disk) (path : Path) : (load disk path).result = ofFile disk path := by
  cases h : ofFile disk path <;> simp [load, Logged.result_bind, h, Except.bind]

/-- A chain is the certificate of its first file and those of the others. -/
theorem result_loadChain_cons (disk : Disk) (path : Path) (paths : List Path) :
    (loadChain disk (path :: paths)).result =
      (ofFile disk path).bind fun body => (loadChain disk paths).result.map (body :: ·) := by
  rw [loadChain, Logged.result_bind, result_load]
  congr 1
  funext body
  rw [Logged.result_bind]
  cases (loadChain disk paths).result <;> rfl

/-- **A chain is one certificate for each file**, in the order of the files. -/
theorem loadChain_eq_ok_iff :
    (loadChain disk paths).result = .ok bodies ↔
      List.Forall₂ (fun path body => ofFile disk path = .ok body) paths bodies := by
  induction paths generalizing bodies with
  | nil => cases bodies <;> simp [loadChain]
  | cons path paths ih =>
    rw [result_loadChain_cons]
    -- an error of this file or of those behind it leaves no certificates at all
    cases hfirst : ofFile disk path with
    | error e => cases bodies <;> simp [Except.bind, hfirst]
    | ok body =>
      cases hrest : (loadChain disk paths).result with
      | error e => cases bodies <;> simp [Except.bind, Except.map, hfirst, hrest, ← ih]
      | ok rest => cases bodies <;> simp [Except.bind, Except.map, hfirst, hrest, ← ih]

/-- **The first bad certificate ends it**, whatever the files behind it hold. -/
theorem loadChain_eq_error (hbefore : ∀ p ∈ before, ∃ body, ofFile disk p = .ok body)
    (h : ofFile disk path = .error e) :
    (loadChain disk (before ++ path :: after)).result = .error e := by
  induction before with
  | nil => rw [List.nil_append, result_loadChain_cons, h]; rfl
  | cons p ps ih =>
    obtain ⟨body, hbody⟩ := hbefore p List.mem_cons_self
    rw [List.cons_append, result_loadChain_cons, hbody,
      ih fun q hq => hbefore q (List.mem_cons_of_mem p hq)]
    rfl

end Certificate

namespace Chained

/-! ### Steps -/

/-- **What is done for a token of files.** -/
inductive Step where
  /-- A certificate file is read. -/
  | readCertificate (path : Path)
  /-- The first block in a certificate file is decoded. -/
  | decodeCertificate (path : Path)
  /-- The label of the block is compared with that of certificates. -/
  | checkLabel (path : Path)
  /-- The key file is read. -/
  | readKey
  | checkPayload
  | checkChain
  /-- The key is decoded. -/
  | decodeKey

/-- **The error that a step finds.** A step whose input an earlier one did not give finds none. -/
def Step.failure? (disk : Disk) (o : Options) : Step → Option Error
  | readCertificate path =>
    match disk.readText path with
    | .error fault => some (.certificateUnread path.shown fault.message)
    | .ok _ => none
  | decodeCertificate path =>
    match (disk.readText path).toOption.map Pem.Lenient.decode with
    | some (.error fault) => some (.certificateUndecoded path.shown fault.message)
    | _ => none
  | checkLabel path =>
    match (disk.readText path).toOption.map Pem.Lenient.decode with
    | some (.ok (found, _)) =>
      if found = Certificate.label then none else some (.notCertificate path.shown found)
    | _ => none
  | readKey =>
    match disk.readText o.key with
    | .error fault => some (.keyUnread o.key.shown fault.message)
    | .ok _ => none
  | checkPayload => if o.payload.isObject then none else some (.payloadNotObject o.payload.kind)
  | checkChain => if o.chain = [] then some .emptyChain else none
  | decodeKey =>
    match (disk.readText o.key).toOption.map Key.read with
    | some (.error fault) => some (.invalidKey fault.message)
    | _ => none

/-- The steps of one certificate. -/
def certificateSteps (path : Path) : List Step :=
  [.readCertificate path, .decodeCertificate path, .checkLabel path]

/-- **The steps of a token of files**, in order. -/
def Options.steps (o : Options) : List Step :=
  o.chain.flatMap certificateSteps ++ [.readKey, .checkPayload, .checkChain, .decodeKey]

variable {disk : Disk} {o : Options} {e : Error}

/-! ### The first step that fails -/

/-- The error that a computation ended in. -/
def error? {α : Type} : Except Error α → Option Error
  | .error e => some e
  | .ok _ => none

section

variable {α : Type} {r : Except Error α}

theorem error?_eq_some_iff : error? r = some e ↔ r = .error e := by
  cases r <;> simp [error?]

theorem error?_eq_none_iff : error? r = none ↔ ∃ a, r = .ok a := by
  cases r <;> simp [error?]

end

/-- **The steps of a certificate** fail as its file does. -/
theorem findSome?_certificateSteps (disk : Disk) (o : Options) (path : Path) :
    (certificateSteps path).findSome? (Step.failure? disk o) =
      error? (Certificate.ofFile disk path) := by
  unfold Certificate.ofFile
  cases hread : disk.readText path with
  | error fault => simp [certificateSteps, Step.failure?, hread, error?]
  | ok text =>
    unfold Certificate.body
    cases hdecode : Pem.Lenient.decode text with
    | error fault =>
      simp [certificateSteps, Step.failure?, hread, hdecode, error?, Except.toOption]
    | ok block =>
      by_cases hlabel : block.1 = Certificate.label
      · simp [certificateSteps, Step.failure?, hread, hdecode, hlabel, error?, Except.toOption]
      · simp [certificateSteps, Step.failure?, hread, hdecode, hlabel, error?, Except.toOption]

/-- The steps of a chain fail as its first bad file does. -/
theorem findSome?_chainSteps (disk : Disk) (o : Options) (paths : List Path) :
    (paths.flatMap certificateSteps).findSome? (Step.failure? disk o) =
      error? (Certificate.loadChain disk paths).result := by
  induction paths with
  | nil => rfl
  | cons path paths ih =>
    rw [List.flatMap_cons, List.findSome?_append, findSome?_certificateSteps, ih,
      Certificate.result_loadChain_cons]
    -- the steps of the first certificate decide if one of them fails, else those of the others
    cases Certificate.ofFile disk path with
    | error e => rfl
    | ok body => cases (Certificate.loadChain disk paths).result <;> rfl

/-- The last steps, for a chain that was read. -/
theorem findSome?_lastSteps (k : P256.Scalar) {bodies : List String}
    (hempty : bodies = [] ↔ o.chain = []) :
    [.readKey, .checkPayload, .checkChain, .decodeKey].findSome? (Step.failure? disk o) =
      error? ((keyText disk o.key).bind fun text => (build k o.payload text bodies).result) := by
  unfold keyText
  cases hread : disk.readText o.key with
  | error fault => simp [Step.failure?, hread, error?, Except.mapError, Except.bind]
  | ok text =>
    simp only [Except.mapError, Except.bind, result_build, Payload.check]
    -- the payload is checked before the chain, and the chain before the key
    by_cases hobj : o.payload.isObject = true
    · by_cases hchain : o.chain = []
      · simp [Step.failure?, hread, hobj, hchain, hempty.mpr hchain, error?]
      · have hbodies : bodies ≠ [] := fun h => hchain (hempty.mp h)
        cases hkey : Key.read text <;>
          simp [Step.failure?, hread, hobj, hchain, hbodies, hkey, error?, Except.map,
            Except.toOption]
    · simp [Step.failure?, hread, hobj, error?]

/-- A token of files is built from what is in them; the events play no part. -/
theorem Options.result_build (disk : Disk) (k : P256.Scalar) (o : Options) :
    (o.build disk k).result = (Certificate.loadChain disk o.chain).result.bind fun bodies =>
      (keyText disk o.key).bind fun text => (Chained.build k o.payload text bodies).result := by
  simp [Options.build, Logged.result_bind, Except.bind]

/-- **The error is that of the first step that fails.** -/
theorem Options.findSome?_steps (disk : Disk) (k : P256.Scalar) (o : Options) :
    o.steps.findSome? (Step.failure? disk o) = error? (o.build disk k).result := by
  rw [steps, List.findSome?_append, findSome?_chainSteps, Options.result_build]
  cases hchain : (Certificate.loadChain disk o.chain).result with
  | error e => rfl
  | ok bodies =>
    -- whether the chain is empty is asked of the certificates, and the step asks it of their paths
    have hlength := (Certificate.loadChain_eq_ok_iff.mp hchain).length_eq
    have hempty : bodies = [] ↔ o.chain = [] := by
      rw [← List.length_eq_zero_iff, ← List.length_eq_zero_iff, hlength]
    rw [findSome?_lastSteps k hempty]
    rfl

/-- **The token of some files** holds the certificates that were read. -/
theorem Options.exists_bodies {k : P256.Scalar} {text : String}
    (h : (o.build disk k).result = .ok text) :
    ∃ bodies, (Certificate.loadChain disk o.chain).result = .ok bodies ∧
      chain? text = some bodies := by
  rw [Options.result_build] at h
  obtain ⟨bodies, hchain, h⟩ := bind_eq_ok.mp h
  obtain ⟨key, -, h⟩ := bind_eq_ok.mp h
  obtain ⟨-, -, d, -, rfl⟩ := (result_build_eq_ok_iff k).mp h
  exact ⟨bodies, hchain, chain?_token _ _ _⟩

/-- **The order of failures.** The error of a token of files is that of the first step that fails. If
none fails, there is a token whose chain has one certificate for each file, and each is the one of
its file. And the first bad certificate decides the error, whatever is wrong with the certificates
behind it, the key, the payload or the chain. -/
theorem Options.build_order (disk : Disk) (k : P256.Scalar) (o : Options) :
    (∀ e, (o.build disk k).result = .error e ↔
      o.steps.findSome? (Step.failure? disk o) = some e) ∧
    (o.steps.findSome? (Step.failure? disk o) = none ↔
      ∃ text bodies, (o.build disk k).result = .ok text ∧ chain? text = some bodies ∧
        bodies.length = o.chain.length ∧
        ∀ i (hi : i < o.chain.length) (hi' : i < bodies.length),
          Certificate.ofFile disk o.chain[i] = .ok bodies[i]) ∧
    ∀ before path after e, o.chain = before ++ path :: after →
      (∀ p ∈ before, ∃ body, Certificate.ofFile disk p = .ok body) →
      Certificate.ofFile disk path = .error e → (o.build disk k).result = .error e := by
  rw [Options.findSome?_steps disk k]
  refine ⟨fun e => error?_eq_some_iff.symm, ⟨fun h => ?_, ?_⟩, ?_⟩
  · obtain ⟨text, htext⟩ := error?_eq_none_iff.mp h
    obtain ⟨bodies, hchain, hcarried⟩ := Options.exists_bodies htext
    have hall := List.forall₂_iff_get.mp (Certificate.loadChain_eq_ok_iff.mp hchain)
    exact ⟨text, bodies, htext, hcarried, hall.1.symm, hall.2⟩
  · rintro ⟨text, -, htext, -⟩
    exact error?_eq_none_iff.mpr ⟨text, htext⟩
  · -- the files behind the first bad one are not even read
    intro before path after e hsplit hbefore hbad
    rw [Options.result_build, hsplit, Certificate.loadChain_eq_error hbefore hbad]
    rfl

/-- Without any file it is the key file that is missed, though the payload is no object and the chain
is empty. -/
example : (Options.build (fun _ => .error .notFound) { val := 1 }
    { payload := .null, key := keyName, chain := [] }).result =
      .error (.keyUnread "leaf_key.pem" "No such file or directory (os error 2)") := by
  decide +kernel

end Chained

end TokenForge
