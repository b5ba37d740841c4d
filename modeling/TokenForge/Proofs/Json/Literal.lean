import Mathlib.Tactic.Common
import TokenForge.Proofs.Json.Grammar

/-!
# Numerals read and numerals spelled

The states of a numeral being read are the literals spelled so far. `Literal.state?` is the state
that a literal leads to.

* `gather` in a row — `gather_append_of_eq` and `gather_append_of_ne`;
* `Numeral.afterWhole_step_digit` and the two like it — one more digit of each part;
* `Literal.finish_state` — the number read is the number that the literal stands for.
-/

namespace TokenForge.Json

/-! ### Digits -/

@[simp] theorem digit?_char (d : Digit) : digit? d.char = some d.val := by
  revert d
  decide

/-- A character with the value of a digit is that digit. -/
theorem eq_char_of_digit? {c : Char} {n : Nat} (h : digit? c = some n) :
    ∃ d : Digit, d.val = n ∧ d.char = c := by
  unfold digit? at h
  split at h
  · next hc =>
    have h0 : 48 ≤ c.toNat := hc.1
    have h9 : c.toNat ≤ 57 := hc.2
    have hn : c.toNat - 48 = n := Option.some.inj h
    refine ⟨⟨n, by omega⟩, rfl, ?_⟩
    apply Char.toNat_inj.mp
    change (Nat.digitChar n).toNat = c.toNat
    rw [Nat.toNat_digitChar_of_lt_ten (by omega)]
    omega
  · exact absurd h (by simp)

@[simp] theorem digitsText_append (ds es : List Digit) :
    digitsText (ds ++ es) = digitsText ds ++ digitsText es := List.map_append

@[simp] theorem digitsText_cons (d : Digit) (ds : List Digit) :
    digitsText (d :: ds) = d.char :: digitsText ds := rfl

@[simp] theorem digitsText_nil : digitsText [] = [] := rfl

@[simp] theorem extend_append (n : Nat) (ds es : List Digit) :
    extend n (ds ++ es) = extend (extend n ds) es := List.foldl_append

@[simp] theorem extend_singleton (n : Nat) (d : Digit) : extend n [d] = n * 10 + d.val := rfl

/-- More digits make no smaller number. -/
theorem le_extend (n : Nat) (ds : List Digit) : n ≤ extend n ds := by
  induction ds generalizing n with
  | nil => exact Nat.le_refl n
  | cons d ds ih =>
    have h := ih (n * 10 + d.val)
    change n ≤ extend (n * 10 + d.val) ds
    omega

/-- Only a zero that stands alone is the digits of zero. -/
theorem append_singleton_ne_zero {ds : List Digit} (hne : ds ≠ []) (d : Digit) :
    ds ++ [d] ≠ [.zero] := by
  intro h
  have hlen := congrArg List.length h
  rw [List.length_append, List.length_singleton, List.length_singleton] at hlen
  have hpos := List.length_pos_iff.mpr hne
  omega

/-! ### The digits that fit -/

/-- Nothing fits after a digit that did not. -/
theorem gather_append_of_ne {s : Nat} {ds : List Digit} (h : (gather s ds).2 ≠ [])
    (es : List Digit) : gather s (ds ++ es) = ((gather s ds).1, (gather s ds).2 ++ es) := by
  induction ds generalizing s with
  | nil => exact absurd rfl h
  | cons d ds ih =>
    rw [List.cons_append]
    unfold gather at h ⊢
    split
    · next hfit =>
      rw [if_pos hfit] at h
      exact ih h
    · rfl

/-- As long as every digit fits, the next ones are gathered after it. -/
theorem gather_append_of_eq {s : Nat} {ds : List Digit} (h : (gather s ds).2 = [])
    (es : List Digit) : gather s (ds ++ es) = gather (gather s ds).1 es := by
  induction ds generalizing s with
  | nil => rfl
  | cons d ds ih =>
    rw [List.cons_append]
    unfold gather at h
    split at h
    · next hfit =>
      have hl : gather s (d :: ds) = gather (s * 10 + d.val) ds := by
        rw [gather, if_pos hfit]
      -- `d` fits, so it is gathered on both sides
      rw [gather, if_pos hfit, hl]
      exact ih h
    · exact absurd h (by simp)

/-- A significand that holds every digit is the number that the digits stand for. -/
theorem gather_fst_of_eq {s : Nat} {ds : List Digit} (h : (gather s ds).2 = []) :
    (gather s ds).1 = extend s ds := by
  induction ds generalizing s with
  | nil => rfl
  | cons d ds ih =>
    unfold gather at h ⊢
    split
    · next hfit =>
      rw [if_pos hfit] at h
      exact ih h
    · next hfit =>
      rw [if_neg hfit] at h
      exact absurd h (by simp)

/-- **All digits fit exactly if their number does.** -/
theorem gather_snd_eq_nil_iff {s : Nat} {ds : List Digit} (hs : s ≤ maxSignificand) :
    (gather s ds).2 = [] ↔ extend s ds ≤ maxSignificand := by
  induction ds generalizing s with
  | nil => exact ⟨fun _ => hs, fun _ => rfl⟩
  | cons d ds ih =>
    have hext : extend s (d :: ds) = extend (s * 10 + d.val) ds := rfl
    by_cases hfit : s * 10 + d.val ≤ maxSignificand
    · rw [gather, if_pos hfit, hext]
      exact ih hfit
    · -- `d` does not fit, and the digits behind it do not lessen the number
      rw [gather, if_neg hfit, hext]
      have hle := le_extend (s * 10 + d.val) ds
      constructor
      · intro h
        exact absurd h (by simp)
      · intro h
        omega

/-! ### The states of a numeral -/

namespace Numeral

/-- The state after the digits before the point. -/
def afterWhole (negative : Bool) (ds : List Digit) : Numeral :=
  if ds = [.zero] then .zero negative
  else if (gather 0 ds).2 = [] then .digits negative (gather 0 ds).1
  else .long negative (gather 0 ds).1 (gather 0 ds).2.length

/-- The state after digits behind the point, of which there are some. -/
def afterFraction (negative : Bool) (s : Nat) (p : Int) (ds : List Digit) : Numeral :=
  if (gather s ds).2 = [] then .fraction negative (gather s ds).1 (p - ds.length)
  else .dropped negative (gather s ds).1 (p - (ds.length - (gather s ds).2.length))

/-- The state after the digits of an exponent, if there is one. -/
def afterExponent? (negative : Bool) (s : Nat) (p : Int) (down : Bool) (ds : List Digit) :
    Option Numeral :=
  if extend 0 ds ≤ maxExponent then some (.exponent negative s p down (extend 0 ds))
  else if s ≠ 0 ∧ down = false then none
  else some (.vanishing negative)

variable {negative down : Bool} {s : Nat} {p : Int} {ds : List Digit} {c : Char}

/-- **One more digit before the point.** -/
theorem afterWhole_step_digit (hne : ds ≠ []) (h0 : ds ≠ [.zero]) (d : Digit) :
    (afterWhole negative ds).step d.char = .more (afterWhole negative (ds ++ [d])) := by
  unfold afterWhole
  rw [if_neg h0, if_neg (append_singleton_ne_zero hne d)]
  by_cases hfit : (gather 0 ds).2 = []
  · -- every digit is held, and `d` is held too or is the first that is not
    rw [if_pos hfit, gather_append_of_eq hfit]
    simp only [step, digit?_char, gather]
    split <;> simp
  · -- a digit was not held before, so `d` is only counted
    rw [if_neg hfit, gather_append_of_ne hfit]
    simp [step]

/-- Behind a zero at the front there is no digit. -/
theorem afterWhole_zero_step_digit (d : Digit) :
    (afterWhole negative [.zero]).step d.char = .fault .badNumber := by
  simp [afterWhole, step]

/-- What is no digit ends the digits before the point. -/
theorem afterWhole_step_other (hc : digit? c = none) :
    (afterWhole negative ds).step c =
      pointOrStop negative (gather 0 ds).1 (gather 0 ds).2.length c := by
  unfold afterWhole
  split
  · next h =>
    -- the zero at the front is a significand of zero
    subst h
    simp only [step, hc]
    rfl
  · split
    · next hfit =>
      simp only [step, hc, hfit, List.length_nil]
      rfl
    · simp only [step, hc]

/-- The first digit behind the point. -/
theorem point_step_digit (d : Digit) :
    (point negative s p).step d.char = .more (afterFraction negative s p [d]) := by
  simp only [step, digit?_char, hold, afterFraction, gather]
  split <;> simp

/-- **One more digit behind the point.** -/
theorem afterFraction_step_digit (d : Digit) :
    (afterFraction negative s p ds).step d.char =
      .more (afterFraction negative s p (ds ++ [d])) := by
  unfold afterFraction
  by_cases hfit : (gather s ds).2 = []
  · -- held digits lower the power
    rw [if_pos hfit, gather_append_of_eq hfit]
    simp only [step, digit?_char, hold, gather]
    split
    · simp
      omega
    · simp
  · -- dropped ones leave it as it is
    rw [if_neg hfit, gather_append_of_ne hfit]
    simp only [step, digit?_char, List.append_eq_nil_iff, hfit, false_and, if_false,
      List.length_append, List.length_singleton]
    congr 2
    omega

/-- What is no digit ends the digits behind the point. -/
theorem afterFraction_step_other (hc : digit? c = none) :
    (afterFraction negative s p ds).step c =
      markOrStop negative (gather s ds).1 (p - (ds.length - (gather s ds).2.length)) c := by
  unfold afterFraction
  split
  · next hfit => simp only [step, hc, hfit, List.length_nil, Int.ofNat_zero, Int.sub_zero]
  · simp only [step, hc]

/-- One digit of an exponent is never too large. -/
theorem afterExponent?_singleton (d : Digit) :
    afterExponent? negative s p down [d] = some (.exponent negative s p down d.val) := by
  have hd : d.val ≤ maxExponent := by
    have := d.isLt
    simp only [maxExponent]
    omega
  simp [afterExponent?, hd]

/-- What is no digit ends an exponent. -/
theorem afterExponent?_step_other {n : Numeral} (hc : digit? c = none)
    (h : afterExponent? negative s p down ds = some n) : n.step c = .stop := by
  unfold afterExponent? at h
  -- both states of an exponent stop there, the one that is kept and the one that vanishes
  split at h
  · obtain rfl := Option.some.inj h
    simp [step, hc]
  · split at h
    · exact absurd h (by simp)
    · obtain rfl := Option.some.inj h
      simp [step, hc]

/-- **One more digit of an exponent.** It is taken exactly if the longer exponent has a state. -/
theorem afterExponent?_step_digit {n : Numeral} (d : Digit)
    (h : afterExponent? negative s p down ds = some n) (m : Numeral) :
    n.step d.char = .more m ↔ afterExponent? negative s p down (ds ++ [d]) = some m := by
  have hext : extend 0 (ds ++ [d]) = extend 0 ds * 10 + d.val := by simp
  unfold afterExponent? at h ⊢
  rw [hext]
  split at h
  · -- the exponent is small, and the machine asks of the longer one what `afterExponent?` asks
    obtain rfl := Option.some.inj h
    simp only [step, digit?_char]
    split
    · simp
    · split <;> simp_all
  · next hbig =>
    split at h
    · exact absurd h (by simp)
    · next hzero =>
      -- the exponent is too large already
      obtain rfl := Option.some.inj h
      rw [if_neg (by omega), if_neg hzero]
      simp [step]

/-- The front of an exponent that has a state has one. -/
theorem afterExponent?_isSome_of_append (es : List Digit)
    (h : (afterExponent? negative s p down (ds ++ es)).isSome) :
    (afterExponent? negative s p down ds).isSome := by
  -- the longer exponent is no smaller, so it is in range only if the front is
  have hext := le_extend (extend 0 ds) es
  rw [← extend_append] at hext
  unfold afterExponent? at h ⊢
  split at h
  · rw [if_pos (by omega)]
    rfl
  · split
    · rfl
    · split at h
      · exact absurd h (by simp)
      · next hzero =>
        rw [if_neg hzero]
        rfl

end Numeral

/-! ### The state that a literal leads to -/

namespace Literal

/-- The state after the digits of a literal, before any exponent. -/
def mantissa (l : Literal) : Numeral :=
  if l.fraction = [] then .afterWhole l.negative l.whole
  else .afterFraction l.negative (gather 0 l.whole).1 (gather 0 l.whole).2.length l.fraction

/-- **The state after a literal**, if its exponent is not out of range. -/
def state? (l : Literal) : Option Numeral :=
  match l.exponent with
  | none => some l.mantissa
  | some e => Numeral.afterExponent? l.negative l.significand l.power e.down e.digits

variable {l : Literal} {n : Numeral} {c : Char}

/-- Without a fraction the significand is gathered from the digits before the point. -/
theorem significand_of_fraction_eq (h : l.fraction = []) :
    l.significand = (gather 0 l.whole).1 := by
  unfold significand
  rw [h]
  rfl

/-- Without a fraction the power counts the digits before the point that do not fit. -/
theorem power_of_fraction_eq (h : l.fraction = []) :
    l.power = (gather 0 l.whole).2.length := by
  unfold power
  rw [h]
  simp [gather]

/-- A point may stand behind the digits if there is none yet. -/
theorem mantissa_step_point (h : l.fraction = []) :
    l.mantissa.step '.' = .more (.point l.negative l.significand l.power) := by
  unfold mantissa
  rw [if_pos h, Numeral.afterWhole_step_other (by decide), significand_of_fraction_eq h,
    power_of_fraction_eq h]
  rfl

/-- What is neither a digit nor a first point may be a mark. -/
theorem mantissa_step_other (hc : digit? c = none) (hpoint : c = '.' → l.fraction ≠ []) :
    l.mantissa.step c = Numeral.markOrStop l.negative l.significand l.power c := by
  unfold mantissa
  split
  · next h =>
    rw [Numeral.afterWhole_step_other hc, significand_of_fraction_eq h, power_of_fraction_eq h,
      Numeral.pointOrStop, if_neg fun hdot => hpoint hdot h]
  · rw [Numeral.afterFraction_step_other hc]
    rfl

/-- **A literal ends before what may follow a value.** -/
theorem step_stop (h : l.state? = some n) (hc : digit? c = none) (hdot : c ≠ '.')
    (he : c ≠ 'e') (hE : c ≠ 'E') : n.step c = .stop := by
  unfold state? at h
  -- with an exponent no mark may follow, and without one the mark is excluded here
  split at h
  · obtain rfl := Option.some.inj h
    rw [mantissa_step_other hc fun hd => absurd hd hdot, Numeral.markOrStop,
      if_neg (not_or.mpr ⟨he, hE⟩)]
  · exact Numeral.afterExponent?_step_other hc h

/-! ### The number at the end -/

/-- A real number is what is assembled of significand and power. -/
theorem real_toOption (negative : Bool) (s : Nat) (p : Int) :
    (real negative s p).toOption =
      (assemble s p).map fun m => .real { negative := negative, magnitude := m } := by
  unfold real
  cases assemble s p with
  | none => rfl
  | some m => rfl

/-- An integer literal denotes zero if its digits do, with either sign. -/
theorem integer_eq_zero_iff : l.integer = 0 ↔ extend 0 l.whole = 0 := by
  unfold integer
  split <;> omega

/-- A whole number is kept as one if it is in range, unless it is a negative zero. -/
theorem whole_of_not_negZero {negative : Bool} {s : Nat} (hz : ¬(negative = true ∧ s = 0)) :
    Json.whole negative s =
      (Whole.ofInt? (if negative then -(s : Int) else s)).elim (real negative s 0)
        fun w => .ok (.whole w) := by
  unfold Json.whole
  rw [if_neg hz]
  cases Whole.ofInt? (if negative then -(s : Int) else s) with
  | some w => rw [Option.elim_some]
  | none => rw [Option.elim_none]

/-- An integer whose digits do not all fit is out of range. -/
theorem kept?_of_gather_ne (h : (gather 0 l.whole).2 ≠ []) : l.kept? = none := by
  have hbig : maxSignificand < extend 0 l.whole := by
    by_contra hle
    exact h ((gather_snd_eq_nil_iff (by decide)).mpr (Nat.le_of_not_lt hle))
  have hnone : Whole.ofInt? l.integer = none := by
    unfold Whole.ofInt?
    apply dif_neg
    -- beyond 64 bits an integer is out of range with either sign
    simp only [maxSignificand] at hbig
    unfold integer
    split <;> omega
  unfold kept?
  rw [hnone]
  split <;> rfl

/-- A literal with a fraction is not kept as an integer. -/
theorem kept?_of_fraction_ne (h : l.fraction ≠ []) : l.kept? = none :=
  if_neg fun hall => h hall.1

/-- A literal with an exponent is not kept as an integer. -/
theorem kept?_of_exponent {e : Exponent} (h : l.exponent = some e) : l.kept? = none :=
  if_neg fun hall => absurd hall.2.1 (by simp [h])

/-- Digits that all fit and have neither point nor exponent after them. -/
theorem whole_toOption (hfit : (gather 0 l.whole).2 = []) (hfrac : l.fraction = [])
    (hexp : l.exponent = none) :
    (Json.whole l.negative (gather 0 l.whole).1).toOption = l.number? := by
  have hs : (gather 0 l.whole).1 = extend 0 l.whole := gather_fst_of_eq hfit
  have hmag : l.magnitude? = assemble (extend 0 l.whole) 0 := by
    unfold magnitude?
    rw [hexp, significand_of_fraction_eq hfrac, power_of_fraction_eq hfrac, hfit, hs]
    rfl
  -- the reader looks for a negative zero among the digits, the grammar in the integer
  have hzero : (l.negative = true ∧ l.integer = 0) ↔
      (l.negative = true ∧ extend 0 l.whole = 0) := by
    rw [integer_eq_zero_iff]
  unfold number? kept?
  rw [hs, hmag]
  by_cases hz : l.negative = true ∧ extend 0 l.whole = 0
  · have hwhole : Json.whole l.negative (extend 0 l.whole) = real l.negative (extend 0 l.whole) 0 :=
      if_pos hz
    rw [hwhole, if_neg (fun hall => hall.2.2 (hzero.mpr hz)), real_toOption]
  · have hwhole : Json.whole l.negative (extend 0 l.whole) =
        (Whole.ofInt? l.integer).elim (real l.negative (extend 0 l.whole) 0)
          fun w => .ok (.whole w) := whole_of_not_negZero hz
    rw [hwhole, if_pos ⟨hfrac, hexp, fun h => hz (hzero.mp h)⟩]
    cases Whole.ofInt? l.integer with
    | some w =>
      rw [Option.elim_some]
      rfl
    | none =>
      rw [Option.elim_none]
      exact real_toOption _ _ _

/-- **The number that is read is the number that the literal stands for.** -/
theorem finish_state (h : l.state? = some n) : n.finish.toOption = l.number? := by
  unfold state? at h
  split at h
  · next hexp =>
    obtain rfl := Option.some.inj h
    unfold mantissa
    split
    · next hfrac =>
      unfold Numeral.afterWhole
      split
      · next hz =>
        -- the zero at the front is a state of its own, and still a numeral whose digits all fit
        have hfit : (gather 0 l.whole).2 = [] := by rw [hz]; rfl
        have hw := whole_toOption hfit hfrac hexp
        have hs : (gather 0 l.whole).1 = 0 := by rw [hz]; rfl
        rw [hs] at hw
        exact hw
      · split
        · next hfit => exact whole_toOption hfit hfrac hexp
        · next hfit =>
          -- too many digits: no integer is kept
          unfold number? magnitude?
          rw [kept?_of_gather_ne hfit, hexp, significand_of_fraction_eq hfrac,
            power_of_fraction_eq hfrac]
          exact real_toOption _ _ _
    · next hfrac =>
      -- a point: no integer is kept, whatever the digits are
      unfold number? magnitude? Numeral.afterFraction
      rw [kept?_of_fraction_ne hfrac, hexp]
      split
      · next hfit =>
        have hp : l.power = (gather 0 l.whole).2.length - l.fraction.length := by
          unfold power
          rw [hfit]
          simp
        rw [hp]
        exact real_toOption _ _ _
      · exact real_toOption _ _ _
  · -- an exponent: no integer is kept either
    next e hexp =>
    unfold number? magnitude?
    rw [kept?_of_exponent hexp, hexp]
    unfold Numeral.afterExponent? at h
    change n.finish.toOption = Option.map _ (if e.size ≤ maxExponent then _ else _)
    split at h
    · next hle =>
      obtain rfl := Option.some.inj h
      rw [if_pos (show e.size ≤ maxExponent from hle)]
      exact real_toOption _ _ _
    · next hgt =>
      split at h
      · exact absurd h (by simp)
      · next hz =>
        -- the exponent is too large, but the number vanishes
        obtain rfl := Option.some.inj h
        rw [if_neg (show ¬e.size ≤ maxExponent from hgt), if_neg hz]
        rfl

/-- A literal without a state stands for no number. -/
theorem number?_of_state?_eq_none (h : l.state? = none) : l.number? = none := by
  unfold state? at h
  split at h
  · exact absurd h (by simp)
  · next e hexp =>
    unfold Numeral.afterExponent? at h
    unfold number? magnitude?
    rw [kept?_of_exponent hexp, hexp]
    change Option.map _ (if e.size ≤ maxExponent then _ else _) = none
    split at h
    · exact absurd h (by simp)
    · -- only an exponent that is too large has no state, and only if the number does not vanish
      next hgt =>
      split at h
      · next hz =>
        rw [if_neg (show ¬e.size ≤ maxExponent from hgt), if_pos hz]
        rfl
      · exact absurd h (by simp)

end Literal

end TokenForge.Json
