import Mathlib.Tactic.SplitIfs
import TokenForge.Number.Text
import TokenForge.Proofs.Text.Cut

/-!
# Digits and the number that they are of

A number is told by its digits, and by a text that begins with them and goes on with no digit. Apart
from digits there are four characters in the text of a number.

* `natDigits_injective`, `intDigits_injective` — no two numbers have the same digits;
* `natDigits_append_inj` — the same with more text behind them;
* `IsFigure`, `RealFormat.areFigures_write` — the characters that numbers are written with.
-/

namespace TokenForge

variable {m n : Nat} {c : Char} {s t : List Char}

theorem isDigit_of_mem_natDigits (h : c ∈ natDigits n) : c.isDigit = true :=
  Nat.isDigit_of_mem_toDigits (by decide) (by decide) h

/-- **No two numbers have the same digits**, as the number is read back from them. -/
theorem natDigits_injective : Function.Injective natDigits := by
  intro m n h
  calc m = Nat.ofDigitChars 10 (natDigits m) 0 := Nat.ofDigitChars_ten_toDigits.symm
    _ = Nat.ofDigitChars 10 (natDigits n) 0 := by rw [h]
    _ = n := Nat.ofDigitChars_ten_toDigits

/-- **A number is told by a text that begins with its digits** and goes on with no digit. -/
theorem natDigits_append_inj (hs : ∀ c ∈ s.head?, c.isDigit = false)
    (ht : ∀ c ∈ t.head?, c.isDigit = false) (h : natDigits m ++ s = natDigits n ++ t) :
    m = n ∧ s = t := by
  -- the digits are all that comes before the first other character
  have hfront (k : Nat) : ∀ c ∈ natDigits k, c.isDigit = true := fun _ => isDigit_of_mem_natDigits
  have hdigits : natDigits m = natDigits n := by
    rw [← Text.takeWhile_append_of_stop (hfront m) hs, h, Text.takeWhile_append_of_stop (hfront n) ht]
  rw [hdigits] at h
  exact ⟨natDigits_injective hdigits, List.append_cancel_left h⟩

/-- No natural number is written with a minus sign. -/
theorem head?_natDigits_ne (n : Nat) : (natDigits n).head? ≠ some '-' := by
  intro h
  have hdigit := isDigit_of_mem_natDigits (List.mem_of_mem_head? h)
  exact absurd hdigit (by decide)

/-- **Nor have two integers**: a minus sign is no digit, so the signs agree as well. -/
theorem intDigits_injective : Function.Injective intDigits := by
  intro m n h
  cases m with
  | ofNat m =>
    cases n with
    | ofNat n => rw [natDigits_injective h]
    | negSucc n => exact absurd (congrArg List.head? h) (head?_natDigits_ne m)
  | negSucc m =>
    cases n with
    | ofNat n => exact absurd (congrArg List.head? h).symm (head?_natDigits_ne n)
    | negSucc n => rw [Nat.succ.inj (natDigits_injective (List.cons.inj h).2)]

theorem toList_toString (n : Nat) : (toString n).toList = natDigits n := by
  rw [Nat.toString_eq_ofList_toDigits, String.toList_ofList]
  rfl

/-! ### The characters of numbers -/

/-- **A character that numbers are written with**: a digit, a sign, the point, or the mark of an
exponent. -/
def IsFigure (c : Char) : Prop := c.isDigit = true ∨ c ∈ ['-', '+', '.', 'e']

/-- A figure is printable ASCII, and neither a quote nor a bracket. -/
theorem IsFigure.bounds (h : IsFigure c) : 0x2B ≤ c.toNat ∧ c.toNat ≤ 0x65 := by
  -- the digits lie between the marks
  rcases h with hdigit | hmark
  · simp only [Char.isDigit, Bool.and_eq_true, decide_eq_true_eq] at hdigit
    have hlow : '0'.toNat ≤ c.toNat := hdigit.1
    have hhigh : c.toNat ≤ '9'.toNat := hdigit.2
    exact ⟨Nat.le_trans (by decide) hlow, Nat.le_trans hhigh (by decide)⟩
  · simp only [List.mem_cons, List.not_mem_nil, or_false] at hmark
    rcases hmark with rfl | rfl | rfl | rfl <;> decide

/-- **A text of figures.** -/
def AreFigures (cs : List Char) : Prop := ∀ c ∈ cs, IsFigure c

@[simp] theorem areFigures_nil : AreFigures [] := fun _ h => absurd h List.not_mem_nil

@[simp] theorem areFigures_cons : AreFigures (c :: s) ↔ IsFigure c ∧ AreFigures s :=
  List.forall_mem_cons

@[simp] theorem areFigures_append : AreFigures (s ++ t) ↔ AreFigures s ∧ AreFigures t :=
  List.forall_mem_append

theorem AreFigures.take (h : AreFigures s) (n : Nat) : AreFigures (s.take n) :=
  fun c hc => h c (List.mem_of_mem_take hc)

theorem AreFigures.drop (h : AreFigures s) (n : Nat) : AreFigures (s.drop n) :=
  fun c hc => h c (List.mem_of_mem_drop hc)

theorem areFigures_natDigits (n : Nat) : AreFigures (natDigits n) :=
  fun _ hc => .inl (isDigit_of_mem_natDigits hc)

theorem areFigures_intDigits (n : Int) : AreFigures (intDigits n) := by
  cases n with
  | ofNat n => exact areFigures_natDigits n
  | negSucc n => exact areFigures_cons.mpr ⟨.inr (by decide), areFigures_natDigits (n + 1)⟩

theorem areFigures_zeros (n : Nat) : AreFigures (List.replicate n '0') := by
  intro c hc
  rw [List.eq_of_mem_replicate hc]
  exact .inl (by decide)

namespace RealFormat

/-- A point among figures, or zeros at either end, leaves figures. -/
theorem areFigures_positional (h : AreFigures s) (n : Int) : AreFigures (positional s n) := by
  have hzero : IsFigure '0' := .inl (by decide)
  have hpoint : IsFigure '.' := .inr (by decide)
  unfold positional
  split_ifs
  · simp [hzero, hpoint, areFigures_zeros, h]
  · simp [hpoint, h.take, h.drop]
  · simp [hzero, hpoint, areFigures_zeros, h]

/-- Digits are figures in scientific notation, too. -/
theorem areFigures_scientific (h : AreFigures s) (e : Int) : AreFigures (scientific s e) := by
  have hpoint : IsFigure '.' := .inr (by decide)
  have hmark : IsFigure 'e' := .inr (by decide)
  have hsign : IsFigure (if e < 0 then '-' else '+') := by
    split_ifs <;> exact .inr (by decide)
  unfold scientific
  dsimp only
  -- which sign it is does not matter
  generalize (if e < 0 then '-' else '+') = sign at hsign
  split_ifs
  · simp [hmark, hsign, h.take, areFigures_natDigits]
  · simp [hpoint, hmark, hsign, h.take, h.drop 1, areFigures_natDigits, -List.drop_one]

/-- The text of a decimal. -/
def shape (f : RealFormat) (d : Decimal) : List Char :=
  let lead := d.exponent + (natDigits d.digits).length - 1
  if f.least ≤ lead ∧ lead ≤ f.greatest then positional (natDigits d.digits) (lead + 1)
  else scientific (natDigits d.digits) lead

/-- The text of a magnitude. -/
def unsigned (f : RealFormat) (m : Magnitude) : List Char :=
  if m.bits = 0 then ['0', '.', '0'] else f.shape m.shortest

/-- A number is written as its magnitude behind its sign. -/
theorem write_eq (f : RealFormat) (x : Binary64) :
    f.write x = (if x.negative then ['-'] else []) ++ f.unsigned x.magnitude := by
  unfold write unsigned
  dsimp only
  rw [← apply_ite]
  rfl

/-- A magnitude is written with figures, be it zero or not. -/
theorem areFigures_unsigned (f : RealFormat) (m : Magnitude) : AreFigures (f.unsigned m) := by
  have hdigits := areFigures_natDigits m.shortest.digits
  unfold unsigned shape
  dsimp only
  split_ifs
  · have hzero : IsFigure '0' := .inl (by decide)
    have hpoint : IsFigure '.' := .inr (by decide)
    simp [hzero, hpoint]
  · exact areFigures_positional hdigits _
  · exact areFigures_scientific hdigits _

/-- **A binary64 number is written with figures.** -/
theorem areFigures_write (f : RealFormat) (x : Binary64) : AreFigures (f.write x) := by
  rw [write_eq, areFigures_append]
  refine ⟨?_, areFigures_unsigned f x.magnitude⟩
  split_ifs
  · exact areFigures_cons.mpr ⟨.inr (by decide), areFigures_nil⟩
  · exact areFigures_nil

end RealFormat

end TokenForge
