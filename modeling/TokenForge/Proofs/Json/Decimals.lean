import TokenForge.Proofs.Json.Assembled
import TokenForge.Proofs.Json.Literal
import TokenForge.Proofs.Json.RoundTrip

/-!
# The text of a binary64 number

A binary64 number is written with the digits of its shortest decimal: with the point among them,
with zeros in front of them or behind them, or with an exponent. Each of these texts is a numeral,
and it is read with the digits and the power of ten that were written, but for a zero behind the
point, which counts as a digit (`exists_literal`).

* `spelled` — the significand and the power of ten that a number is read with;
* `Literal.Writes` — a literal that writes a number, one for each shape of the text;
* `rounds_spelled` — what is spelled rounds to the number, before anything of it is rounded.
-/

namespace TokenForge.Json

/-! ### The text of a number as a literal -/

/-- **The significand and the power of ten that the text of a decimal is read with.** They are its
own; but a decimal that is written with all digits before the point has a zero behind the point,
which counts as one more digit. -/
def decimalParts (d : Decimal) : Nat × Int :=
  if 0 ≤ d.exponent ∧ d.exponent + (natDigits d.digits).length - 1 ≤ realFormat.greatest then
    (d.digits * 10 ^ d.exponent.toNat * 10, -1)
  else (d.digits, d.exponent)

/-- The text of a decimal. -/
def decimalText (d : Decimal) : List Char :=
  let ds := natDigits d.digits
  let lead := d.exponent + ds.length - 1
  if realFormat.least ≤ lead ∧ lead ≤ realFormat.greatest then RealFormat.positional ds (lead + 1)
  else RealFormat.scientific ds lead

/-- **What the text of a magnitude is read with.** A zero is written with two digits. -/
def spelled (m : Magnitude) : Nat × Int :=
  if m.bits = 0 then (0, -1) else decimalParts m.shortest

example : spelled { bits := 0x3FE0000000000000 } = (5, -1) := by decide +kernel

/-- Zeros behind some digits multiply the number by a power of ten. -/
theorem extend_replicate_zero (n z : Nat) :
    extend n (List.replicate z Digit.zero) = n * 10 ^ z := by
  induction z generalizing n with
  | zero => rw [List.replicate_zero, Nat.pow_zero, Nat.mul_one]; rfl
  -- one zero more is one digit more, and the rest of the zeros come behind it
  | succ z ih =>
    have hcons : extend n (List.replicate (z + 1) Digit.zero) =
        extend (n * 10 + 0) (List.replicate z Digit.zero) := rfl
    rw [hcons, ih, Nat.add_zero, Nat.pow_succ]
    ring

theorem digitsText_replicate_zero (z : Nat) :
    digitsText (List.replicate z Digit.zero) = List.replicate z '0' :=
  List.map_replicate

/-- **All digits of a literal are held** if they fit, and those behind the point lower the power. -/
theorem Literal.parts_of_le {l : Literal} (h : extend 0 (l.whole ++ l.fraction) ≤ maxSignificand) :
    l.significand = extend 0 (l.whole ++ l.fraction) ∧ l.power = -(l.fraction.length : Int) := by
  rw [extend_append] at h ⊢
  have hwhole : extend 0 l.whole ≤ maxSignificand := (le_extend _ _).trans h
  -- the bound holds for the digits before the point, and then for those behind it, so neither round
  -- drops a digit
  have hfits := (gather_snd_eq_nil_iff (Nat.zero_le _)).mpr hwhole
  have hfirst := gather_fst_of_eq hfits
  have hrest := (gather_snd_eq_nil_iff hwhole).mpr h
  constructor
  · rw [significand, hfirst, gather_fst_of_eq hrest]
  · rw [power, hfits, hfirst, hrest]
    simp

/-- The digits of a number that is not zero, the first of them no zero. -/
theorem exists_significant_digits {n : Nat} (hn : n ≠ 0) :
    ∃ ds : List Digit, ds ≠ [] ∧ ds.head? ≠ some .zero ∧ digitsText ds = natDigits n ∧
      extend 0 ds = n := by
  obtain ⟨ds, hne, hzero, htext, hvalue⟩ := exists_digits n
  -- only the number zero has a zero in front
  refine ⟨ds, hne, fun hhead => hn ?_, htext, hvalue⟩
  rw [← hvalue, hzero hhead]
  rfl

/-- **A literal that writes a number**: the characters behind its sign, and what it is read with. -/
structure Literal.Writes (l : Literal) (negative : Bool) (t : List Char) (s : Nat) (p : Int) :
    Prop where
  text : l.text = signText negative ++ t
  negative : l.negative = negative
  kept : l.kept? = none
  magnitude : l.magnitude? = assemble s p

/-- A literal without an exponent, and all of its digits held. -/
theorem Literal.writes_of_le {l : Literal} {t : List Char} {s : Nat} {p : Int}
    (htext : digitsText l.whole ++ '.' :: digitsText l.fraction = t) (hne : l.fraction ≠ [])
    (hnone : l.exponent = none) (hs : extend 0 (l.whole ++ l.fraction) = s)
    (hmax : s ≤ maxSignificand) (hp : -(l.fraction.length : Int) = p) :
    l.Writes l.negative t s p := by
  subst hs
  obtain ⟨hsignificand, hpower⟩ := parts_of_le hmax
  refine ⟨?_, rfl, ?_, ?_⟩
  · rw [Literal.text, fractionText, if_neg hne, hnone, exponentText, List.append_nil,
      List.append_assoc, htext]
  · -- a literal with a fraction is not kept as a whole number
    rw [kept?, if_neg fun h => hne h.1]
  · rw [magnitude?, hnone, ← hp, ← hsignificand, ← hpower]

/-! The four shapes that the text of a number has, of digits `ds` without a zero at the front. -/

section Shapes

open RealFormat

variable (negative : Bool) {ds : List Digit}

theorem length_digitsText (ds : List Digit) : (digitsText ds).length = ds.length :=
  List.length_map _

/-- Some of the digits, from the first on, have no zero at the front either. -/
theorem take_significant {k : Nat} (hk : 0 < k) (hne : ds ≠ []) (hhead : ds.head? ≠ some .zero) :
    ds.take k ≠ [] ∧ (ds.take k).head? ≠ some .zero := by
  constructor
  · rw [ne_eq, List.take_eq_nil_iff]
    exact fun h => h.elim (Nat.pos_iff_ne_zero.mp hk) hne
  · rwa [List.head?_take, if_neg (Nat.pos_iff_ne_zero.mp hk)]

/-- A number below one: zeros between the point and the digits. -/
def Literal.below (z : Nat) (ds : List Digit) : Literal where
  negative := negative
  whole := [.zero]
  fraction := List.replicate z .zero ++ ds
  exponent := none
  whole_ne := by simp
  noLeadingZero := fun _ => rfl

/-- **A number below one** is written with its point in front of the digits, and `z` zeros between.
-/
theorem Literal.below_writes (z : Nat) (hne : ds ≠ []) (hmax : extend 0 ds ≤ maxSignificand) :
    (below negative z ds).Writes negative (positional (digitsText ds) (-(z : Int)))
      (extend 0 ds) (-((z + ds.length : Nat) : Int)) := by
  -- the zeros in front add nothing to the number, only to the places behind the point
  have hvalue : extend 0 ([Digit.zero] ++ (List.replicate z .zero ++ ds)) = extend 0 ds := by
    have hzero : extend 0 [Digit.zero] = 0 := rfl
    rw [extend_append, extend_append, hzero, extend_replicate_zero, Nat.zero_mul]
  refine writes_of_le ?_ (by simp [below, hne]) rfl hvalue hmax (by simp [below])
  -- the point stands in front of all digits, which is the first case of the writer
  have hpoint : -(z : Int) ≤ 0 := by omega
  rw [positional, if_pos hpoint, below, digitsText_append, digitsText_replicate_zero, neg_neg,
    Int.toNat_natCast]
  rfl

/-- A number with the point behind the first `k` of its digits. -/
def Literal.amid (k : Nat) (ds : List Digit) (hne : ds.take k ≠ [])
    (hhead : (ds.take k).head? ≠ some .zero) : Literal where
  negative := negative
  whole := ds.take k
  fraction := ds.drop k
  exponent := none
  whole_ne := hne
  noLeadingZero := fun h => absurd h hhead

/-- **A number with the point among its digits** is written with the first `k` of them before it. -/
theorem Literal.amid_writes {k : Nat} (hne : ds.take k ≠ [])
    (hhead : (ds.take k).head? ≠ some .zero) (hk : 0 < k) (hlen : k < ds.length)
    (hmax : extend 0 ds ≤ maxSignificand) :
    (amid negative k ds hne hhead).Writes negative (positional (digitsText ds) k) (extend 0 ds)
      (-((ds.length - k : Nat) : Int)) := by
  have hdigits : ds.take k ++ ds.drop k = ds := List.take_append_drop k ds
  have hrest : ds.drop k ≠ [] := by
    rw [ne_eq, List.drop_eq_nil_iff]
    omega
  refine writes_of_le ?_ hrest rfl (congrArg (extend 0) hdigits) hmax
    (by rw [amid, List.length_drop])
  -- the point stands behind `k` digits, and there are more: the second case of the writer
  have hpoint : ¬(k : Int) ≤ 0 := by omega
  have hinside : k < (digitsText ds).length := by rwa [length_digitsText]
  rw [positional, if_neg hpoint, Int.toNat_natCast, if_pos hinside]
  simp only [amid, digitsText, List.map_take, List.map_drop]

/-- A whole number: zeros behind its digits, and one behind the point. -/
def Literal.above (z : Nat) (ds : List Digit) (hne : ds ≠ []) (hhead : ds.head? ≠ some .zero) :
    Literal where
  negative := negative
  whole := ds ++ List.replicate z .zero
  fraction := [.zero]
  exponent := none
  whole_ne := by simp [hne]
  noLeadingZero := fun h => absurd ((List.head?_append_of_ne_nil _ hne).symm.trans h) hhead

/-- **A whole number** is written with `z` zeros behind its digits, and one more behind the point,
which is read as a digit of its own. -/
theorem Literal.above_writes (z : Nat) (hne : ds ≠ []) (hhead : ds.head? ≠ some .zero)
    (hmax : extend 0 ds * 10 ^ z * 10 ≤ maxSignificand) :
    (above negative z ds hne hhead).Writes negative
      (positional (digitsText ds) ((ds.length + z : Nat) : Int)) (extend 0 ds * 10 ^ z * 10)
      (-1) := by
  -- the zero behind the point is one more factor of ten
  have hvalue : extend 0 ((ds ++ List.replicate z .zero) ++ [Digit.zero]) =
      extend 0 ds * 10 ^ z * 10 := by
    rw [extend_append, extend_append, extend_replicate_zero, extend_singleton]
    rfl
  refine writes_of_le ?_ (by simp [above]) rfl hvalue hmax rfl
  have hpos : 0 < ds.length := List.length_pos_iff.mpr hne
  -- the point stands behind all digits, which is the last case of the writer
  have hpoint : ¬((ds.length + z : Nat) : Int) ≤ 0 := by omega
  have hbehind : ¬ds.length + z < (digitsText ds).length := by
    rw [length_digitsText]
    omega
  rw [positional, if_neg hpoint, Int.toNat_natCast, if_neg hbehind, above, digitsText_append,
    digitsText_replicate_zero, length_digitsText, Nat.add_sub_cancel_left]
  rfl

/-- A number with an exponent: the point behind the first digit, if there are more. -/
def Literal.scaled (ds : List Digit) (e : Int) (es : List Digit) (hes : es ≠ [])
    (hne : ds.take 1 ≠ []) (hhead : (ds.take 1).head? ≠ some .zero) : Literal where
  negative := negative
  whole := ds.take 1
  fraction := ds.drop 1
  exponent := some ⟨false, if e < 0 then .minus else .plus, es, hes⟩
  whole_ne := hne
  noLeadingZero := fun h => absurd h hhead

/-- **A number with an exponent** is written with the point behind its first digit, and the exponent
is that of this digit. All digits are held, and the reader finds the exponent of the last digit by
taking away the places behind the point. -/
theorem Literal.scaled_writes {e : Int} {es : List Digit} (hes : es ≠ []) (hne : ds.take 1 ≠ [])
    (hhead : (ds.take 1).head? ≠ some .zero) (hmax : extend 0 ds ≤ maxSignificand)
    (htext : digitsText es = natDigits e.natAbs) (hsize : extend 0 es = e.natAbs)
    (he : e.natAbs ≤ maxExponent) :
    (scaled negative ds e es hes hne hhead).Writes negative (scientific (digitsText ds) e)
      (extend 0 ds) (e - ((ds.length - 1 : Nat) : Int)) := by
  have hdigits : ds.take 1 ++ ds.drop 1 = ds := List.take_append_drop 1 ds
  -- the digits before and behind the point are all of them, and they fit
  have hheld : extend 0 ((scaled negative ds e es hes hne hhead).whole ++
      (scaled negative ds e es hes hne hhead).fraction) = extend 0 ds :=
    congrArg (extend 0) hdigits
  obtain ⟨hsignificand, hpower⟩ := parts_of_le (hheld.symm ▸ hmax)
  rw [hheld] at hsignificand
  refine ⟨?_, rfl, ?_, ?_⟩
  · -- the text: the point is left out if there is a single digit, and the sign of the exponent is
    -- always written
    have hfraction : fractionText (ds.drop 1) =
        if (digitsText ds).length ≤ 1 then [] else '.' :: (digitsText ds).drop 1 := by
      rw [fractionText, length_digitsText]
      simp only [List.drop_eq_nil_iff, digitsText, List.map_drop]
    have hsign : (if e < 0 then ExponentSign.minus else .plus).text =
        [if e < 0 then '-' else '+'] := by
      split <;> rfl
    have hexponent : exponentText (scaled negative ds e es hes hne hhead).exponent =
        'e' :: (if e < 0 then '-' else '+') :: natDigits e.natAbs := by
      change 'e' :: ((if e < 0 then ExponentSign.minus else .plus).text ++ digitsText es) = _
      rw [hsign, htext]
      rfl
    rw [Literal.text, hexponent, scientific, ← hfraction]
    simp only [scaled, digitsText, List.map_take, List.append_assoc]
  · rw [kept?, if_neg fun h => by exact absurd h.2.1 (by simp [scaled])]
  · -- the value: the reader adds the exponent to the power or takes it away, as its sign says
    have hdown : decide ((if e < 0 then ExponentSign.minus else .plus) = .minus) =
        decide (e < 0) := by
      by_cases hneg : e < 0
      · rw [if_pos hneg, decide_eq_true hneg, decide_eq_true rfl]
      · rw [if_neg hneg, decide_eq_false hneg]
        rfl
    change (if extend 0 es ≤ maxExponent then _ else _) = _
    rw [hsize, if_pos he, hsignificand, hpower]
    -- the exponent in the two branches has its sign back, so both are the same sum
    change assemble (extend 0 ds)
      (if decide ((if e < 0 then ExponentSign.minus else .plus) = .minus) = true
        then -((ds.drop 1).length : Int) - (extend 0 es : Nat)
        else -((ds.drop 1).length : Int) + (extend 0 es : Nat)) = _
    rw [hdown, hsize, List.length_drop]
    simp only [decide_eq_true_eq]
    congr 1
    split <;> omega

end Shapes

/-! ### The decimal that is written -/

section Written

variable {m : Magnitude}

/-- **The shortest decimal on its grid**, in the bounds of what is read as it stands. -/
theorem shortest_bounds (hm : m.bits ≠ 0) :
    Rounds m.bits (m.shortest.digits * grid m.shortest.exponent) ∧
      m.shortest.digits ≤ maxSignificand ∧ -324 ≤ m.shortest.exponent ∧
      m.shortest.exponent ≤ (maxPower : Nat) := by
  obtain ⟨hrounds, hne, hdigits, hlow⟩ := Magnitude.rounds_shortest hm
  rw [Decimal.value, mul_assoc] at hrounds
  refine ⟨hrounds, hdigits.trans (by decide), hlow, ?_⟩
  -- a greater power of ten is beyond the greatest magnitude
  by_contra hlt
  have hone : (1 : ℚ) ≤ m.shortest.digits := by exact_mod_cast Nat.one_le_iff_ne_zero.mpr hne
  have hgrid : grid (maxPower + 1 : Nat) ≤ grid m.shortest.exponent := grid_mono (by omega)
  have hvalue : (halfway (infiniteBits - 1) : ℚ) <
      2 * (m.shortest.digits * grid m.shortest.exponent) := by
    calc (halfway (infiniteBits - 1) : ℚ)
        < ((2 * (10 ^ (maxPower + 1) * unitsPerOne) : Nat) : ℚ) := by
          exact_mod_cast Magnitude.halfway_table.2.2
      _ = 2 * grid (maxPower + 1 : Nat) := by rw [grid_natCast, Nat.cast_mul, Nat.cast_ofNat]
      _ ≤ 2 * (1 * grid m.shortest.exponent) := by rw [one_mul]; linarith
      _ ≤ 2 * (m.shortest.digits * grid m.shortest.exponent) := by
        have hmul := mul_le_mul_of_nonneg_right hone (grid_pos m.shortest.exponent).le
        linarith
  have hbits := Rounds.lt_bits hrounds hvalue
  have hfinite := m.finite
  omega

/-- A number is below the power of ten with as many zeros as it has digits. -/
theorem digits_lt_pow (n : Nat) : n < 10 ^ (natDigits n).length :=
  (Nat.length_toDigits_le_iff (by decide) Nat.length_toDigits_pos).mp le_rfl

/-- **What is read of a text rounds to the number**, before anything of it is rounded. -/
theorem rounds_spelled (m : Magnitude) :
    Rounds m.bits ((spelled m).1 * grid (spelled m).2) ∧ (spelled m).1 ≤ maxSignificand ∧
      -324 ≤ (spelled m).2 ∧ (spelled m).2 ≤ (maxPower : Nat) := by
  rw [spelled]
  split
  · -- a zero has no shortest decimal, and is read as it is
    next hzero =>
    have hself := Rounds.units_self 0
    refine ⟨?_, by decide, by decide, by decide⟩
    rw [hzero, Nat.cast_zero, zero_mul]
    exact hself
  · next hm =>
    obtain ⟨hrounds, hdigits, hlow, hhigh⟩ := shortest_bounds hm
    rw [decimalParts]
    split
    · -- a whole number, whose zero behind the point is read as a digit
      next hwhole =>
      obtain ⟨hnonneg, hgreatest⟩ := hwhole
      have hlow : -324 ≤ (-1 : Int) := by decide
      have hhigh : (-1 : Int) ≤ (maxPower : Nat) := by decide
      refine ⟨?_, ?_, hlow, hhigh⟩
      · -- the number is the same: what the power of ten loses the digits gain
        have hgrid : grid m.shortest.exponent =
            10 ^ (m.shortest.exponent.toNat + 1) * grid (-1) := by
          rw [← grid_add]
          congr 1
          omega
        rw [hgrid] at hrounds
        push_cast
        rw [show (m.shortest.digits * 10 ^ m.shortest.exponent.toNat * 10 * grid (-1) : ℚ) =
          m.shortest.digits * (10 ^ (m.shortest.exponent.toNat + 1) * grid (-1)) by ring]
        exact hrounds
      · -- and it fits, as the writer leaves this form at the sixteenth place
        have hlt := digits_lt_pow m.shortest.digits
        have hsum : (natDigits m.shortest.digits).length + m.shortest.exponent.toNat ≤ 16 := by
          have hformat : realFormat.greatest = 15 := rfl
          omega
        calc m.shortest.digits * 10 ^ m.shortest.exponent.toNat * 10
            ≤ 10 ^ (natDigits m.shortest.digits).length * 10 ^ m.shortest.exponent.toNat * 10 := by
              gcongr
          _ = 10 ^ ((natDigits m.shortest.digits).length + m.shortest.exponent.toNat) * 10 := by
              rw [Nat.pow_add]
          _ ≤ 10 ^ 16 * 10 := by
              gcongr
              decide
          _ ≤ maxSignificand := by decide
    · exact ⟨hrounds, hdigits, hlow, hhigh⟩

end Written

/-- The text of a decimal is a literal with its parts. -/
theorem exists_writes (negative : Bool) {d : Decimal} (hne : d.digits ≠ 0)
    (hmax : d.digits ≤ maxSignificand) (hparts : (decimalParts d).1 ≤ maxSignificand)
    (hlow : -324 ≤ d.exponent) (hhigh : d.exponent ≤ (maxPower : Nat)) :
    ∃ l : Literal, l.Writes negative (decimalText d) (decimalParts d).1 (decimalParts d).2 := by
  obtain ⟨ds, hds, hhead, htext, hvalue⟩ := exists_significant_digits hne
  have hlength : (natDigits d.digits).length = ds.length := by rw [← htext, length_digitsText]
  have hpos : 0 < ds.length := List.length_pos_iff.mpr hds
  have hleast : realFormat.least = -5 := rfl
  have hgreatest : realFormat.greatest = 15 := rfl
  -- the digits fit in 64 bits, so there are at most twenty of them
  have hshort : ds.length ≤ 20 := by
    rw [← hlength]
    exact (Nat.length_toDigits_le_iff (by decide) (by decide)).mpr (hmax.trans_lt (by decide))
  rw [decimalParts, hlength] at hparts ⊢
  rw [decimalText, hlength, ← htext]
  rw [← hvalue] at hmax hparts ⊢
  generalize d.exponent = e at hlow hhigh hparts ⊢
  -- the cases of the writer, with the digits made those of a literal in each
  by_cases hposition :
    realFormat.least ≤ e + ds.length - 1 ∧ e + ds.length - 1 ≤ realFormat.greatest
  · rw [if_pos hposition]
    rcases le_or_gt 0 e with hwhole | hfraction
    · -- the point is behind all digits
      obtain ⟨z, rfl⟩ := Int.eq_ofNat_of_zero_le hwhole
      have hcond : 0 ≤ (z : Int) ∧ (z : Int) + ds.length - 1 ≤ realFormat.greatest :=
        ⟨hwhole, hposition.2⟩
      rw [if_pos hcond, Int.toNat_natCast] at hparts ⊢
      rw [show (z : Int) + ds.length - 1 + 1 = ((ds.length + z : Nat) : Int) by omega]
      exact ⟨_, Literal.above_writes negative z hds hhead hparts⟩
    · have hcond : ¬(0 ≤ e ∧ e + ds.length - 1 ≤ realFormat.greatest) := fun h => by omega
      rw [if_neg hcond]
      rcases le_or_gt (e + ds.length) 0 with hbelow | hamid
      · -- the point is in front of all digits
        obtain ⟨z, hz⟩ := Int.eq_ofNat_of_zero_le (neg_nonneg.mpr hbelow)
        rw [show e + ds.length - 1 + 1 = -(z : Int) by omega,
          show e = -((z + ds.length : Nat) : Int) by omega]
        exact ⟨_, Literal.below_writes negative z hds hmax⟩
      · -- the point is among the digits
        obtain ⟨k, hk⟩ := Int.eq_ofNat_of_zero_le hamid.le
        rw [show e + ds.length - 1 + 1 = (k : Int) by omega,
          show e = -((ds.length - k : Nat) : Int) by omega]
        have hsome : 0 < k := by omega
        obtain ⟨hne, hfirst⟩ := take_significant hsome hds hhead
        exact ⟨_, Literal.amid_writes negative hne hfirst hsome (by omega) hmax⟩
  · -- the leading digit is too far from the point, and the exponent tells how far
    rw [if_neg hposition]
    have hcond : ¬(0 ≤ e ∧ e + ds.length - 1 ≤ realFormat.greatest) := fun h => by omega
    rw [if_neg hcond]
    obtain ⟨es, hes, -, hestext, hesvalue⟩ := exists_digits (e + ds.length - 1).natAbs
    obtain ⟨hne, hfirst⟩ := take_significant Nat.one_pos hds hhead
    have hsize : (e + ds.length - 1).natAbs ≤ maxExponent := by
      have hpower : maxPower = 308 := rfl
      have hexponent : maxExponent = 0x7FFFFFFF := rfl
      omega
    have hwrites := Literal.scaled_writes negative hes hne hfirst hmax hestext hesvalue hsize
    rw [show e + ds.length - 1 - ((ds.length - 1 : Nat) : Int) = e by omega] at hwrites
    exact ⟨_, hwrites⟩

/-- **The text of a number is a literal**, which is read with the significand and the power of ten
that are spelled. -/
theorem exists_literal (x : Binary64) :
    ∃ l : Literal, l.text = realFormat.write x ∧ l.negative = x.negative ∧ l.kept? = none ∧
      l.magnitude? = assemble (spelled x.magnitude).1 (spelled x.magnitude).2 := by
  -- it is enough to find the characters behind the sign and a literal that writes them
  suffices h : ∃ (t : List Char) (l : Literal),
      realFormat.write x = Literal.signText x.negative ++ t ∧
        l.Writes x.negative t (spelled x.magnitude).1 (spelled x.magnitude).2 by
    obtain ⟨t, l, hwrite, htext, hnegative, hkept, hmagnitude⟩ := h
    exact ⟨l, by rw [htext, hwrite], hnegative, hkept, hmagnitude⟩
  have hbounds := (rounds_spelled x.magnitude).2.1
  rw [spelled] at hbounds ⊢
  -- zero is a number below one, with no digit but the one behind the point
  by_cases hzero : x.magnitude.bits = 0
  · have hwrite : realFormat.write x = Literal.signText x.negative ++ ['0', '.', '0'] := by
      rw [RealFormat.write, if_pos hzero]
      rfl
    rw [if_pos hzero]
    have hne : [Digit.zero] ≠ [] := by decide
    exact ⟨_, _, hwrite, Literal.below_writes x.negative 0 hne (by decide)⟩
  · have hwrite : realFormat.write x =
        Literal.signText x.negative ++ decimalText x.magnitude.shortest := by
      rw [RealFormat.write, if_neg hzero]
      rfl
    obtain ⟨hrounds, hdigits, hlow, hhigh⟩ := shortest_bounds hzero
    rw [if_neg hzero] at hbounds ⊢
    obtain ⟨l, hl⟩ := exists_writes x.negative (Magnitude.rounds_shortest hzero).2.1 hdigits hbounds
      hlow hhigh
    exact ⟨_, l, hwrite, hl⟩

end TokenForge.Json
