import Mathlib.Data.Fintype.Basic
import Mathlib.Tactic.FinCases
import TokenForge.Json.Reader
import TokenForge.Proofs.Json.Literal

/-!
# Numerals read are literals spelled

* `Literal.begin_text` — a literal that has a state begins a numeral and leads it to that state;
* `Numeral.Reads` — what has been spelled when a numeral is in some state: a literal, or the front
  of one; `Numeral.Reads.step` — one character more.
-/

namespace TokenForge.Json

namespace Numeral

/-! ### A whole literal -/

/-- The state after some characters, if they all belong to the numeral. -/
def feed (n : Numeral) : List Char → Option Numeral
  | [] => some n
  | c :: cs =>
    match n.step c with
    | .more m => m.feed cs
    | .stop | .fault _ => none

variable {negative down : Bool} {s : Nat} {p : Int} {n m : Numeral} {ds : List Digit}

theorem feed_cons {c : Char} (h : n.step c = .more m) (cs : List Char) :
    n.feed (c :: cs) = m.feed cs := by
  rw [feed, h]

/-- A stretch that is taken leads to where the rest is taken from. -/
theorem feed_append {cs : List Char} (h : n.feed cs = some m) (ds : List Char) :
    n.feed (cs ++ ds) = m.feed ds := by
  induction cs generalizing n with
  | nil =>
    obtain rfl := Option.some.inj h
    rfl
  | cons c cs ih =>
    rw [List.cons_append]
    cases hstep : n.step c with
    | more k =>
      rw [feed_cons hstep] at h ⊢
      exact ih h
    -- no character of the stretch may stop the numeral or be refused
    | stop =>
      rw [feed, hstep] at h
      exact absurd h (by simp)
    | fault cause =>
      rw [feed, hstep] at h
      exact absurd h (by simp)

/-- Any digit may stand behind the sign, a zero too. -/
theorem minus_step_digit (d : Digit) : minus.step d.char = .more (afterWhole true [d]) := by
  fin_cases d <;> rfl

/-- More digits of the whole part, unless it is a zero, behind which there is none. -/
theorem feed_whole (hne : ds ≠ []) (h0 : ds ≠ [.zero]) (es : List Digit) :
    (afterWhole negative ds).feed (digitsText es) = some (afterWhole negative (ds ++ es)) := by
  induction es generalizing ds with
  | nil => simp [feed]
  | cons e es ih =>
    -- with one digit more the part is still no zero, as it was not empty before
    rw [digitsText_cons, feed_cons (afterWhole_step_digit hne h0 e),
      ih (by simp) (append_singleton_ne_zero hne e), List.append_assoc, List.singleton_append]

/-- More digits behind the point. -/
theorem feed_fraction (es : List Digit) :
    (afterFraction negative s p ds).feed (digitsText es) =
      some (afterFraction negative s p (ds ++ es)) := by
  induction es generalizing ds with
  | nil => simp [feed]
  | cons e es ih =>
    rw [digitsText_cons, feed_cons (afterFraction_step_digit e), ih, List.append_assoc,
      List.singleton_append]

/-- More digits of an exponent that has a state with them and without. -/
theorem feed_exponent {es : List Digit}
    (hn : afterExponent? negative s p down ds = some n)
    (hm : afterExponent? negative s p down (ds ++ es) = some m) :
    n.feed (digitsText es) = some m := by
  induction es generalizing ds n with
  | nil =>
    rw [List.append_nil, hn] at hm
    exact hm
  | cons e es ih =>
    have hsplit : ds ++ e :: es = (ds ++ [e]) ++ es := by simp
    rw [hsplit] at hm
    -- an exponent that is too large stays so, so the digits up to `e` have a state too
    obtain ⟨k, hk⟩ := Option.isSome_iff_exists.mp
      (afterExponent?_isSome_of_append es (Option.isSome_iff_exists.mpr ⟨m, hm⟩))
    rw [digitsText_cons, feed_cons ((afterExponent?_step_digit e hn k).mpr hk)]
    exact ih hk hm

/-- The digits of an exponent that has a state. -/
theorem feed_mark (e : Exponent)
    (h : afterExponent? negative s p e.down e.digits = some n) :
    (mark negative s p).feed (e.sign.text ++ digitsText e.digits) = some n := by
  obtain ⟨d, ds, hds⟩ := List.exists_cons_of_ne_nil e.digits_ne
  have hfirst : afterExponent? negative s p e.down [d] =
      some (.exponent negative s p e.down d.val) := afterExponent?_singleton d
  rw [hds] at h ⊢
  have hrest : (exponent negative s p e.down d.val).feed (digitsText ds) = some n :=
    feed_exponent hfirst h
  rw [digitsText_cons]
  -- the sign, if there is one, decides the direction, and the first digit comes behind it
  unfold Exponent.down at hrest
  cases hsign : e.sign with
  | absent =>
    rw [hsign] at hrest
    rw [ExponentSign.text, List.nil_append, feed_cons (m := .exponent negative s p false d.val)]
    · exact hrest
    · simp [step]
  | plus =>
    rw [hsign] at hrest
    rw [ExponentSign.text, List.singleton_append, feed_cons (m := .sign negative s p false) rfl,
      feed_cons (m := .exponent negative s p false d.val)]
    · exact hrest
    · simp [step]
  | minus =>
    rw [hsign] at hrest
    rw [ExponentSign.text, List.singleton_append, feed_cons (m := .sign negative s p true) rfl,
      feed_cons (m := .exponent negative s p true d.val)]
    · exact hrest
    · simp [step]

end Numeral

namespace Literal

variable {l : Literal} {n : Numeral}

/-- The whole part of a literal, from its first digit on. -/
theorem feed_whole {d : Digit} {ds : List Digit} (hw : l.whole = d :: ds) :
    (Numeral.afterWhole l.negative [d]).feed (digitsText ds) =
      some (.afterWhole l.negative l.whole) := by
  rw [hw]
  by_cases hds : ds = []
  · subst hds
    rfl
  · -- a zero at the front would be the only digit
    have h0 : ([d] : List Digit) ≠ [.zero] := by
      intro h
      obtain rfl : d = .zero := List.head_eq_of_cons_eq h
      have hzero := l.noLeadingZero (by rw [hw]; rfl)
      rw [hw] at hzero
      exact hds (List.tail_eq_of_cons_eq hzero)
    exact Numeral.feed_whole (by simp) h0 ds

/-- The fraction of a literal, if it has one. -/
theorem feed_fraction :
    (Numeral.afterWhole l.negative l.whole).feed (fractionText l.fraction) = some l.mantissa := by
  unfold fractionText mantissa
  split
  · rfl
  · next hne =>
    -- the point wants a digit behind it before there is a fraction
    obtain ⟨f, fs, hf⟩ := List.exists_cons_of_ne_nil hne
    rw [hf, digitsText_cons, Numeral.feed_cons (Numeral.afterWhole_step_other (by decide)),
      Numeral.feed_cons (Numeral.point_step_digit f), Numeral.feed_fraction]
    rfl

/-- The exponent of a literal, if it has one. -/
theorem feed_exponent (h : l.state? = some n) :
    l.mantissa.feed (exponentText l.exponent) = some n := by
  unfold state? at h
  unfold exponentText
  cases hexp : l.exponent with
  | none =>
    rw [hexp] at h
    exact h
  | some e =>
    rw [hexp] at h
    -- the mark belongs to the numeral whether or not there was a point
    have hmark : l.mantissa.step (if e.capital then 'E' else 'e') =
        .more (.mark l.negative l.significand l.power) := by
      rw [mantissa_step_other (by split <;> decide) (by split <;> simp)]
      unfold Numeral.markOrStop
      rw [if_pos (by split <;> simp)]
    change l.mantissa.feed ((if e.capital then 'E' else 'e') :: (e.sign.text ++ _)) = some n
    rw [Numeral.feed_cons hmark]
    exact Numeral.feed_mark e h

/-- A digit begins a number wherever a value may begin. -/
theorem begin_digit (d : Digit) (stack : List Frame) :
    State.begin d.char stack = .ok { mode := .number (.afterWhole false [d]), stack := stack } := by
  fin_cases d <;> rfl

/-- **A literal is read to its end**, from its first character on. -/
theorem begin_text (h : l.state? = some n) :
    ∃ c t first, l.text = c :: t ∧
      (∀ stack, State.begin c stack = .ok { mode := .number first, stack := stack }) ∧
      Numeral.feed first t = some n := by
  obtain ⟨d, ds, hw⟩ := List.exists_cons_of_ne_nil l.whole_ne
  -- what follows the first digit, part by part
  have hrest : (Numeral.afterWhole l.negative [d]).feed
      (digitsText ds ++ fractionText l.fraction ++ exponentText l.exponent) = some n := by
    rw [List.append_assoc, Numeral.feed_append (feed_whole hw), Numeral.feed_append feed_fraction]
    exact feed_exponent h
  have htext : l.text = signText l.negative ++ d.char ::
      (digitsText ds ++ fractionText l.fraction ++ exponentText l.exponent) := by
    unfold text
    rw [hw]
    simp
  rw [htext]
  -- the numeral begins with its sign or with its first digit
  cases hneg : l.negative with
  | false =>
    rw [hneg] at hrest
    exact ⟨_, _, _, rfl, begin_digit d, hrest⟩
  | true =>
    rw [hneg] at hrest
    refine ⟨_, _, .minus, rfl, fun _ => rfl, ?_⟩
    exact (Numeral.feed_cons (Numeral.minus_step_digit d) _).trans hrest

end Literal

/-! ### One part more -/

/-- An exponent with one more digit. -/
def Exponent.snoc (e : Exponent) (d : Digit) : Exponent where
  capital := e.capital
  sign := e.sign
  digits := e.digits ++ [d]
  digits_ne := by simp

namespace Literal

variable {l : Literal} {e : Exponent}

/-- The literal of one digit. -/
def ofDigit (negative : Bool) (d : Digit) : Literal where
  negative := negative
  whole := [d]
  fraction := []
  exponent := none
  whole_ne := by simp
  noLeadingZero hhead := by rw [Option.some.inj hhead]

/-- A literal with one more digit in front of the point. -/
def snocWhole (l : Literal) (d : Digit) (h : l.whole ≠ [.zero]) : Literal where
  negative := l.negative
  whole := l.whole ++ [d]
  fraction := l.fraction
  exponent := l.exponent
  whole_ne := by simp
  noLeadingZero hhead := by
    rw [List.head?_append_of_ne_nil _ l.whole_ne] at hhead
    exact absurd (l.noLeadingZero hhead) h

/-- A literal with one more digit behind the point. -/
def snocFraction (l : Literal) (d : Digit) : Literal :=
  { l with fraction := l.fraction ++ [d] }

/-- A literal with an exponent in place of its own. -/
def withExponent (l : Literal) (e : Exponent) : Literal :=
  { l with exponent := some e }

theorem state?_ofDigit (negative : Bool) (d : Digit) :
    (ofDigit negative d).state? = some (.afterWhole negative [d]) := rfl

theorem text_snocWhole (d : Digit) (h : l.whole ≠ [.zero]) (hf : l.fraction = [])
    (he : l.exponent = none) : (l.snocWhole d h).text = l.text ++ [d.char] := by
  simp [text, snocWhole, hf, he, fractionText, exponentText]

theorem text_snocFraction (d : Digit) (hf : l.fraction ≠ []) (he : l.exponent = none) :
    (l.snocFraction d).text = l.text ++ [d.char] := by
  simp [text, snocFraction, hf, he, fractionText, exponentText]

theorem text_snocFraction_point (d : Digit) (hf : l.fraction = []) (he : l.exponent = none) :
    (l.snocFraction d).text = l.text ++ ['.'] ++ [d.char] := by
  simp [text, snocFraction, hf, he, fractionText, exponentText]

theorem text_withExponent (he : l.exponent = none) :
    (l.withExponent e).text = l.text ++ e.text := by
  simp [text, withExponent, he, exponentText]

theorem state?_snocFraction (d : Digit) (hf : l.fraction ≠ []) (he : l.exponent = none)
    {m : Numeral} (h : l.mantissa.step d.char = .more m) :
    (l.snocFraction d).state? = some m := by
  unfold mantissa at h
  rw [if_neg hf, Numeral.afterFraction_step_digit] at h
  have hm := Numeral.Step.more.inj h
  simp [state?, snocFraction, mantissa, he, hm]

end Literal

/-! ### What has been read -/

def markChar (capital : Bool) : Char := if capital then 'E' else 'e'

/-- **What has been spelled when a numeral is in a state**: a literal that leads to the state, or
the front of one that breaks off after a sign, a point or a mark. -/
inductive Numeral.Reads : List Char → Numeral → Prop
  | literal {l : Literal} {n : Numeral} : l.state? = some n → Reads l.text n
  | minus : Reads ['-'] .minus
  | point {l : Literal} : l.fraction = [] → l.exponent = none →
      Reads (l.text ++ ['.']) (.point l.negative l.significand l.power)
  | mark {l : Literal} {capital : Bool} : l.exponent = none →
      Reads (l.text ++ [markChar capital]) (.mark l.negative l.significand l.power)
  | sign {l : Literal} {capital : Bool} {g : ExponentSign} : l.exponent = none →
      g ≠ .absent →
      Reads (l.text ++ markChar capital :: g.text)
        (.sign l.negative l.significand l.power (g = .minus))

namespace Numeral

variable {negative : Bool} {s : Nat} {p : Int} {n m : Numeral} {c : Char}

/-- Only a mark goes on with a numeral whose digits are over. -/
theorem markOrStop_eq_more (h : markOrStop negative s p c = .more m) :
    ∃ capital, c = markChar capital ∧ m = .mark negative s p := by
  unfold markOrStop at h
  split at h
  · next hc =>
    refine ⟨c = 'E', ?_, (Step.more.inj h).symm⟩
    rcases hc with rfl | rfl <;> rfl
  · exact absurd h (by simp)

/-- The digits of a literal that has no exponent yet, and one character more. -/
theorem Reads.mantissa_step {l : Literal} (he : l.exponent = none)
    (h : l.mantissa.step c = .more m) : Reads (l.text ++ [c]) m := by
  cases hc : digit? c with
  | none =>
    -- no digit: a point, if there is none yet, or the mark of an exponent
    by_cases hpoint : c = '.' ∧ l.fraction = []
    · obtain ⟨rfl, hf⟩ := hpoint
      rw [Literal.mantissa_step_point hf] at h
      obtain rfl := Step.more.inj h
      exact .point hf he
    · rw [Literal.mantissa_step_other hc fun hd hf => hpoint ⟨hd, hf⟩] at h
      obtain ⟨capital, rfl, rfl⟩ := markOrStop_eq_more h
      exact .mark he
  | some k =>
    obtain ⟨d, rfl, rfl⟩ := eq_char_of_digit? hc
    by_cases hf : l.fraction = []
    · by_cases h0 : l.whole = [.zero]
      · -- the machine refuses what the grammar has no literal for
        unfold Literal.mantissa at h
        rw [if_pos hf, h0, afterWhole_zero_step_digit] at h
        exact absurd h (by simp)
      · rw [← Literal.text_snocWhole d h0 hf he]
        refine .literal ?_
        unfold Literal.mantissa at h
        rw [if_pos hf, afterWhole_step_digit l.whole_ne h0] at h
        simp [Literal.state?, Literal.snocWhole, Literal.mantissa, he, hf, Step.more.inj h]
    · -- a digit behind the point may always follow
      rw [← Literal.text_snocFraction d hf he]
      exact .literal (Literal.state?_snocFraction d hf he h)

/-- A literal that has an exponent, and one character more. -/
theorem Reads.exponent_step {l : Literal} {e : Exponent} (he : l.exponent = some e)
    (hn : afterExponent? l.negative l.significand l.power e.down e.digits = some n)
    (h : n.step c = .more m) : Reads (l.text ++ [c]) m := by
  cases hc : digit? c with
  | none =>
    rw [afterExponent?_step_other hc hn] at h
    exact absurd h (by simp)
  -- only a digit goes on with an exponent
  | some k =>
    obtain ⟨d, rfl, rfl⟩ := eq_char_of_digit? hc
    have htext : (l.withExponent (e.snoc d)).text = l.text ++ [d.char] := by
      simp [Literal.text, Literal.withExponent, he, Literal.exponentText, Exponent.text,
        Exponent.snoc]
    rw [← htext]
    exact .literal ((afterExponent?_step_digit d hn m).mp h)

/-- The first digit of an exponent makes a literal of what breaks off behind its mark. -/
theorem Reads.first_exponent {l : Literal} {capital : Bool} {g : ExponentSign}
    (he : l.exponent = none) (d : Digit) :
    Reads (l.text ++ markChar capital :: (g.text ++ [d.char]))
      (.exponent l.negative l.significand l.power (g = .minus) d.val) := by
  have htext := Literal.text_withExponent
    (e := { capital := capital, sign := g, digits := [d], digits_ne := by simp }) he
  change _ = l.text ++ markChar capital :: (g.text ++ [d.char]) at htext
  rw [← htext]
  exact .literal (afterExponent?_singleton d)

/-- **One character more of a numeral.** -/
theorem Reads.step {t : List Char} (hr : Reads t n) (h : n.step c = .more m) :
    Reads (t ++ [c]) m := by
  cases hr with
  | @literal l _ hstate =>
    -- a longer literal, or one with a point or a mark behind it
    unfold Literal.state? at hstate
    split at hstate
    · next he =>
      obtain rfl := Option.some.inj hstate
      exact .mantissa_step he h
    · next e he => exact .exponent_step he hstate h
  | minus =>
    -- from here on a state that is no literal takes a digit and becomes one
    cases hc : digit? c with
    | none => simp [step, hc] at h
    | some k =>
      obtain ⟨d, rfl, rfl⟩ := eq_char_of_digit? hc
      rw [minus_step_digit] at h
      obtain rfl := Step.more.inj h
      exact .literal (Literal.state?_ofDigit true d)
  | @point l hf he =>
    cases hc : digit? c with
    | none => simp [step, hc] at h
    | some k =>
      obtain ⟨d, rfl, rfl⟩ := eq_char_of_digit? hc
      rw [point_step_digit] at h
      obtain rfl := Step.more.inj h
      rw [← Literal.text_snocFraction_point d hf he]
      refine .literal ?_
      simp [Literal.state?, Literal.snocFraction, Literal.mantissa, he, hf,
        Literal.significand_of_fraction_eq hf, Literal.power_of_fraction_eq hf]
  | @mark l capital he =>
    rw [List.append_assoc, List.singleton_append]
    cases hc : digit? c with
    | none =>
      -- a mark may have a sign behind it before its first digit
      simp only [step, hc] at h
      split at h
      · next hplus =>
        subst hplus
        obtain rfl := Step.more.inj h
        exact .sign (g := .plus) he (by decide)
      · split at h
        · next hminus =>
          subst hminus
          obtain rfl := Step.more.inj h
          exact .sign (g := .minus) he (by decide)
        · exact absurd h (by simp)
    | some k =>
      obtain ⟨d, rfl, rfl⟩ := eq_char_of_digit? hc
      simp only [step, hc] at h
      obtain rfl := Step.more.inj h
      exact .first_exponent (g := .absent) he d
  | @sign l capital g he _ =>
    rw [List.append_assoc, List.cons_append]
    cases hc : digit? c with
    | none => simp [step, hc] at h
    | some k =>
      obtain ⟨d, rfl, rfl⟩ := eq_char_of_digit? hc
      simp only [step, hc] at h
      obtain rfl := Step.more.inj h
      exact .first_exponent he d

end Numeral

end TokenForge.Json
