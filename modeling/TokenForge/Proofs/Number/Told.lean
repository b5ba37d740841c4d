import Mathlib.Data.List.TakeWhile
import Mathlib.Tactic.Ring
import TokenForge.Proofs.Number.Digits
import TokenForge.Proofs.Number.Shortest

/-!
# Numbers told by their texts

No two binary64 numbers are written alike, whatever the format. A text of digits, with a point among
them and an exponent behind them, stands for one number only; what is written stands for the shortest
decimal of the magnitude, and a decimal rounds to one magnitude only.

* `Stands` — a numeral without a sign, and the number that it stands for;
* `stands_shape` — the text of a decimal stands for it;
* `write_injective` — no two numbers are written alike.
-/

namespace TokenForge.RealFormat

/-! ### Numerals -/

/-- How many characters come behind the point. -/
def places (mantissa : List Char) : Nat := (mantissa.dropWhile (· ≠ '.')).tail.length

/-- The exponent that a numeral ends in, its mark and its sign in front of it. -/
def exponentOf : List Char → Int
  | 'e' :: '-' :: ds => -(Nat.ofDigitChars 10 ds 0 : Nat)
  | 'e' :: '+' :: ds => (Nat.ofDigitChars 10 ds 0 : Nat)
  | _ => 0

/-- No exponent is as good as the exponent zero. -/
theorem exponentOf_nil : exponentOf [] = 0 := rfl

/-- Digits and points. -/
def IsMantissa (cs : List Char) : Prop := ∀ c ∈ cs, c.isDigit = true ∨ c = '.'

/-- **A numeral without a sign and the number that it stands for**: digits with or without a point
among them, and behind these nothing or the mark of an exponent. -/
def Stands (cs : List Char) (q : ℚ) : Prop :=
  ∃ mantissa rest, cs = mantissa ++ rest ∧ IsMantissa mantissa ∧ (∀ c ∈ rest.head?, c = 'e') ∧
    q = (Nat.ofDigitChars 10 (mantissa.filter (· ≠ '.')) 0 : Nat) *
      10 ^ (exponentOf rest - places mantissa)

variable {cs ds whole fraction mantissa rest : List Char} {q r : ℚ}

/-- A numeral may end in its mantissa. -/
theorem head?_nil_eq_mark : ∀ c ∈ ([] : List Char).head?, c = 'e' := by simp

/-- The mantissa of a numeral is all that comes before the mark. -/
theorem IsMantissa.takeWhile_append (h : IsMantissa mantissa) (hrest : ∀ c ∈ rest.head?, c = 'e') :
    (mantissa ++ rest).takeWhile (· ≠ 'e') = mantissa := by
  refine Text.takeWhile_append_of_stop (fun c hc => ?_) fun c hc => by simp [hrest c hc]
  rw [decide_eq_true_iff]
  -- the mark is neither a digit nor the point
  rintro rfl
  exact absurd (h _ hc) (by decide)

/-- **A numeral stands for one number only.** -/
theorem Stands.unique (hq : Stands cs q) (hr : Stands cs r) : q = r := by
  obtain ⟨m, x, rfl, hm, hx, rfl⟩ := hq
  obtain ⟨n, y, heq, hn, hy, rfl⟩ := hr
  -- both mantissas are all that comes before the mark
  obtain rfl : m = n := by
    rw [← hm.takeWhile_append hx, heq, hn.takeWhile_append hy]
  rw [List.append_cancel_left heq]

/-- A numeral does not begin with a sign. -/
theorem Stands.head?_ne (h : Stands cs q) : cs.head? ≠ some '-' := by
  obtain ⟨m, x, rfl, hm, hx, -⟩ := h
  intro hhead
  cases m with
  | nil => exact absurd (hx '-' hhead) (by decide)
  | cons c m =>
    obtain rfl : c = '-' := Option.some.inj hhead
    exact absurd (hm '-' List.mem_cons_self) (by decide)

/-! ### Decimals -/

theorem ne_point_of_isDigit {c : Char} (h : c.isDigit = true) : c ≠ '.' := by
  rintro rfl
  exact absurd h (by decide)

theorem filter_digits (h : ∀ c ∈ ds, c.isDigit = true) : ds.filter (· ≠ '.') = ds :=
  List.filter_eq_self.mpr fun c hc => by simpa using ne_point_of_isDigit (h c hc)

theorem isDigit_zero : ∀ c ∈ ['0'], c.isDigit = true := List.forall_mem_singleton.mpr rfl

theorem isDigit_zeros (n : Nat) : ∀ c ∈ List.replicate n '0', c.isDigit = true := by
  intro c hc
  rw [List.eq_of_mem_replicate hc]
  rfl

/-- Digits, a point and more digits. -/
theorem stands_point (hwhole : ∀ c ∈ whole, c.isDigit = true)
    (hfraction : ∀ c ∈ fraction, c.isDigit = true) (hrest : ∀ c ∈ rest.head?, c = 'e')
    (hq : q = (Nat.ofDigitChars 10 (whole ++ fraction) 0 : Nat) *
      10 ^ (exponentOf rest - fraction.length)) :
    Stands (whole ++ '.' :: fraction ++ rest) q := by
  refine ⟨whole ++ '.' :: fraction, rest, rfl, fun c hc => ?_, hrest, ?_⟩
  · rcases List.mem_append.mp hc with hc | hc
    · exact .inl (hwhole c hc)
    · exact (List.mem_cons.mp hc).elim .inr fun hc => .inl (hfraction c hc)
  · -- the digits without the point between them
    have hdigits : (whole ++ '.' :: fraction).filter (· ≠ '.') = whole ++ fraction := by
      rw [List.filter_append, filter_digits hwhole, List.filter_cons_of_neg (by simp),
        filter_digits hfraction]
    -- the digits before the point are dropped, and the point itself
    have hplaces : places (whole ++ '.' :: fraction) = fraction.length := by
      rw [places, List.dropWhile_append_of_pos fun c hc => by
        simpa using ne_point_of_isDigit (hwhole c hc)]
      simp
    rw [hdigits, hplaces, hq]

/-- Digits without a point. -/
theorem stands_whole (hwhole : ∀ c ∈ whole, c.isDigit = true) (hrest : ∀ c ∈ rest.head?, c = 'e')
    (hq : q = (Nat.ofDigitChars 10 whole 0 : Nat) * 10 ^ exponentOf rest) :
    Stands (whole ++ rest) q := by
  refine ⟨whole, rest, rfl, fun c hc => .inl (hwhole c hc), hrest, ?_⟩
  -- without a point nothing comes behind it
  have hplaces : places whole = 0 := by
    rw [places, List.dropWhile_eq_nil_iff.mpr fun c hc => by
      simpa using ne_point_of_isDigit (hwhole c hc)]
    rfl
  rw [filter_digits hwhole, hplaces, Nat.cast_zero, sub_zero, hq]

/-- Digits with a point after the first `n` of them. -/
theorem stands_positional (hds : ∀ c ∈ ds, c.isDigit = true) (n : Int) :
    Stands (positional ds n) ((Nat.ofDigitChars 10 ds 0 : Nat) * 10 ^ (n - ds.length)) := by
  rw [← List.append_nil (positional ds n)]
  unfold positional
  split_ifs with hbelow hamid
  · -- all digits are behind the point, with zeros in front of them
    have hzeros := List.forall_mem_append.mpr ⟨isDigit_zeros (-n).toNat, hds⟩
    refine stands_point isDigit_zero hzeros head?_nil_eq_mark ?_
    have hplace : n - ds.length =
        exponentOf [] - (List.replicate (-n).toNat '0' ++ ds).length := by
      rw [List.length_append, List.length_replicate, exponentOf_nil]
      omega
    rw [hplace]
    simp [Nat.ofDigitChars_append, Nat.ofDigitChars_replicate_zero, Nat.ofDigitChars_cons]
  · -- the point is among the digits
    have htake : ∀ c ∈ ds.take n.toNat, c.isDigit = true :=
      fun c hc => hds c (List.mem_of_mem_take hc)
    have hdrop : ∀ c ∈ ds.drop n.toNat, c.isDigit = true :=
      fun c hc => hds c (List.mem_of_mem_drop hc)
    refine stands_point htake hdrop head?_nil_eq_mark ?_
    have hplace : n - ds.length = exponentOf [] - (ds.drop n.toNat).length := by
      rw [List.length_drop, exponentOf_nil]
      omega
    rw [hplace, List.take_append_drop]
  · -- all digits are before the point, with zeros behind them
    have hzeros := List.forall_mem_append.mpr ⟨hds, isDigit_zeros (n.toNat - ds.length)⟩
    refine stands_point hzeros isDigit_zero head?_nil_eq_mark ?_
    have hplace : n - ds.length = ((n.toNat - ds.length : Nat) : Int) := by omega
    rw [hplace, zpow_natCast]
    simp [Nat.ofDigitChars_append, Nat.ofDigitChars_replicate_zero, Nat.ofDigitChars_cons,
      exponentOf_nil]
    ring

/-- The end of a numeral with an exponent. -/
def exponentText (e : Int) : List Char := 'e' :: (if e < 0 then '-' else '+') :: natDigits e.natAbs

/-- The exponent is read back from its text, whichever sign it has. -/
theorem exponentOf_exponentText (e : Int) : exponentOf (exponentText e) = e := by
  have hdigits : Nat.ofDigitChars 10 (natDigits e.natAbs) 0 = e.natAbs :=
    Nat.ofDigitChars_ten_toDigits
  unfold exponentText
  split_ifs with hneg
  · rw [exponentOf, hdigits]
    omega
  · rw [exponentOf, hdigits]
    omega

/-- Digits with a point after the first of them, and an exponent. -/
theorem stands_scientific (hds : ∀ c ∈ ds, c.isDigit = true) (e : Int) :
    Stands (scientific ds e)
      ((Nat.ofDigitChars 10 ds 0 : Nat) * 10 ^ (e - (ds.length - 1 : Nat))) := by
  have hmark : ∀ c ∈ (exponentText e).head?, c = 'e' := by simp [exponentText]
  have htext : scientific ds e =
      ds.take 1 ++ (if ds.length ≤ 1 then [] else '.' :: ds.drop 1) ++ exponentText e := rfl
  rw [htext]
  -- a single digit has no point behind it
  by_cases hone : ds.length ≤ 1
  · rw [if_pos hone, List.append_nil, List.take_of_length_le hone]
    refine stands_whole hds hmark ?_
    rw [exponentOf_exponentText, show ds.length - 1 = 0 by omega, Nat.cast_zero, sub_zero]
  · have hdrop : ∀ c ∈ ds.drop 1, c.isDigit = true := fun c hc => hds c (List.mem_of_mem_drop hc)
    rw [if_neg hone]
    refine stands_point (fun c hc => hds c (List.mem_of_mem_take hc)) hdrop hmark ?_
    rw [exponentOf_exponentText, List.take_append_drop, List.length_drop]

/-- **The text of a decimal stands for it**, in every format. -/
theorem stands_shape (f : RealFormat) (d : Decimal) : Stands (f.shape d) d.value := by
  have hds : ∀ c ∈ natDigits d.digits, c.isDigit = true := fun _ => isDigit_of_mem_natDigits
  have hvalue : Nat.ofDigitChars 10 (natDigits d.digits) 0 = d.digits :=
    Nat.ofDigitChars_ten_toDigits
  have hpos : 0 < (natDigits d.digits).length := Nat.length_toDigits_pos
  unfold shape Decimal.value
  dsimp only
  -- both formats: the point is placed by the leading digit, and the value counts from the last one
  split_ifs
  · have hstands := stands_positional hds (d.exponent + (natDigits d.digits).length)
    rw [sub_add_cancel]
    rwa [hvalue, add_sub_cancel_right] at hstands
  · have hstands := stands_scientific hds (d.exponent + (natDigits d.digits).length - 1)
    have hplace : d.exponent + (natDigits d.digits).length - 1 -
        ((natDigits d.digits).length - 1 : Nat) = d.exponent := by omega
    rwa [hvalue, hplace] at hstands

/-! ### Magnitudes and numbers -/

/-- **The text of a magnitude stands for a number that rounds to it.** -/
theorem exists_stands (f : RealFormat) (m : Magnitude) :
    ∃ q, Stands (f.unsigned m) q ∧ Rounds m.bits (q * unitsPerOne) := by
  unfold unsigned
  split_ifs with hzero
  · -- zero has no shortest decimal: its text is fixed
    refine ⟨0, ?_, ?_⟩
    · exact stands_point isDigit_zero isDigit_zero head?_nil_eq_mark
        (by simp [Nat.ofDigitChars_cons])
    · rw [hzero, zero_mul]
      exact_mod_cast Rounds.units_self 0
  · -- any other magnitude has a shortest decimal, which rounds to it
    exact ⟨_, stands_shape f m.shortest, (Magnitude.rounds_shortest hzero).1⟩

/-- **No two magnitudes are written alike**: the text stands for one number, and a number rounds to
one magnitude. -/
theorem unsigned_injective (f : RealFormat) : Function.Injective f.unsigned := by
  intro m n h
  obtain ⟨q, hq, hm⟩ := f.exists_stands m
  obtain ⟨r, hr, hn⟩ := f.exists_stands n
  rw [← h] at hr
  rw [← hq.unique hr] at hn
  have hbits : m.bits = n.bits := hm.unique hn
  cases m
  cases n
  simpa using hbits

/-- **No two binary64 numbers are written alike**, whatever the format; the zeros differ in their
sign. -/
theorem write_injective (f : RealFormat) : Function.Injective f.write := by
  have hhead (m : Magnitude) : (f.unsigned m).head? ≠ some '-' := by
    obtain ⟨q, hq, -⟩ := f.exists_stands m
    exact hq.head?_ne
  intro x y h
  rw [write_eq, write_eq] at h
  obtain ⟨negative, m⟩ := x
  obtain ⟨negative', n⟩ := y
  -- the sign is told by the first character, as no magnitude begins with one
  cases negative with
  | false =>
    cases negative' with
    | false => exact congrArg (Binary64.mk false) (f.unsigned_injective h)
    | true => exact absurd (congrArg List.head? h) (hhead m)
  | true =>
    cases negative' with
    | false => exact absurd (congrArg List.head? h).symm (hhead n)
    | true => exact congrArg (Binary64.mk true) (f.unsigned_injective (List.cons.inj h).2)

end TokenForge.RealFormat
