/-!
# Computations that end in a value or an error

A computation that ends in a value has done so in each of its parts. So what is read can be taken
apart step by step, without a look at the errors. And the error of a computation is that of one of
its parts, so what holds of the errors of the parts holds of those of the whole (`ErrorsHave`).
-/

namespace TokenForge

variable {ε δ α β : Type} {x : Except ε α} {a b : α} {c : β}

/-- **Two computations in a row** end in a value if both do. -/
theorem bind_eq_ok {f : α → Except ε β} : (x >>= f) = .ok c ↔ ∃ a, x = .ok a ∧ f a = .ok c := by
  cases x with
  | error e => simp [bind, Except.bind]
  | ok a => simp [bind, Except.bind]

theorem pure_eq_ok : (pure a : Except ε α) = .ok b ↔ a = b := by
  simp [pure, Except.pure]

/-- Another wording of errors leaves the values. -/
theorem mapError_eq_ok {f : ε → δ} : x.mapError f = .ok a ↔ x = .ok a := by
  cases x with
  | error e =>
    constructor
    · intro h
      cases h
    · intro h
      cases h
  | ok b =>
    constructor
    · intro h
      rw [Except.ok.inj h]
    · intro h
      rw [Except.ok.inj h]
      rfl

theorem toOption_eq_some : x.toOption = some a ↔ x = .ok a := by
  cases x <;> simp [Except.toOption]

/-- **A check** is passed by what ends in a value. -/
theorem check_eq_ok {p : Prop} [Decidable p] {e : ε} {next : PUnit → Except ε α} :
    (if p then throw e >>= next else x) = .ok a ↔ ¬p ∧ x = .ok a := by
  by_cases hp : p
  · rw [if_pos hp]
    constructor
    · intro h
      cases h
    · exact fun h => absurd hp h.1
  · rw [if_neg hp]
    exact (and_iff_right hp).symm

/-! ### Errors -/

/-- **Every error in which a computation may end has a property.** -/
def ErrorsHave (p : ε → Prop) (x : Except ε α) : Prop := ∀ e, x = .error e → p e

variable {p : ε → Prop}

theorem errorsHave_ok (p : ε → Prop) (a : α) : ErrorsHave p (.ok a : Except ε α) :=
  fun _ h => nomatch h

theorem errorsHave_error {e : ε} (h : p e) : ErrorsHave p (.error e : Except ε α) := by
  rintro _ ⟨⟩
  exact h

/-- **The error of two computations in a row** is that of one of them. -/
theorem ErrorsHave.bind {f : α → Except ε β} (hx : ErrorsHave p x)
    (hf : ∀ a, ErrorsHave p (f a)) : ErrorsHave p (x >>= f) := by
  cases x with
  | error e => exact errorsHave_error (hx e rfl)
  | ok a => exact hf a

/-- A change of the value is no error. -/
theorem ErrorsHave.map {f : α → β} (hx : ErrorsHave p x) : ErrorsHave p (x.map f) := by
  cases x with
  | error e => exact errorsHave_error (hx e rfl)
  | ok a => exact errorsHave_ok p (f a)

/-- A change of the error has the property if the changed error does. -/
theorem ErrorsHave.mapError {q : δ → Prop} {f : ε → δ} (hx : ErrorsHave (fun e => q (f e)) x) :
    ErrorsHave q (x.mapError f) := by
  cases x with
  | error e => exact errorsHave_error (hx e rfl)
  | ok a => exact errorsHave_ok q a

theorem ErrorsHave.check {c : Prop} [Decidable c] {e : ε} {next : PUnit → Except ε α} (he : p e)
    (hx : ErrorsHave p x) : ErrorsHave p (if c then throw e >>= next else x) := by
  split
  · exact errorsHave_error he
  · exact hx

end TokenForge
