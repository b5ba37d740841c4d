import TokenForge.Proofs.Json.Around

/-!
# Integers in payloads

An integer literal, with neither point nor exponent, is kept as the integer that it denotes if that
is one of 64 bits, signed or not, and the literal is no negative zero. It is then written as it was
spelled. Every other integer literal is a binary64 number, and those are never written like integers
(`RealFormat.mark_mem_write`), or is out of range, and then the text is refused where it ends.

* `Literal.shownAs` — a number is written as the integer literal that it was, or with a mark;
* `Payload.read_integer` — what becomes of an integer literal at a place in a payload.
-/

namespace TokenForge

/-! ### Binary64 numbers as text -/

namespace RealFormat

/-- A number in positional notation has a point. -/
theorem point_mem_positional (ds : List Char) (n : Int) : '.' ∈ positional ds n := by
  unfold positional
  split
  · simp
  · split <;> simp

/-- A number in scientific notation has a mark. -/
theorem mark_mem_scientific (ds : List Char) (e : Int) : 'e' ∈ scientific ds e := by
  simp [scientific]

/-- **A binary64 number is not written like an integer**: there is a point in its text or the mark
of an exponent. -/
theorem mark_mem_write (f : RealFormat) (x : Binary64) : '.' ∈ f.write x ∨ 'e' ∈ f.write x := by
  unfold write
  dsimp only
  by_cases hbits : x.magnitude.bits = 0
  · rw [if_pos hbits]
    exact .inl (List.mem_append_right _ (by simp))
  · rw [if_neg hbits]
    -- the sign is no mark
    refine Or.imp (List.mem_append_right _) (List.mem_append_right _) ?_
    split
    · exact .inl (point_mem_positional _ _)
    · exact .inr (mark_mem_scientific _ _)

end RealFormat

namespace Json

/-! ### Digits and the number that they denote -/

/-- A number that does not begin with zero is not zero. -/
theorem extend_pos {ds : List Digit} (hne : ds ≠ []) (hhead : ds.head? ≠ some .zero) :
    0 < extend 0 ds := by
  obtain ⟨d, ds, rfl⟩ := List.exists_cons_of_ne_nil hne
  have hd : d.val ≠ 0 := fun h => hhead (congrArg some (Fin.ext h))
  have hle : d.val ≤ extend 0 (d :: ds) := by
    have h := le_extend (0 * 10 + d.val) ds
    rw [Nat.zero_mul, Nat.zero_add] at h
    simpa [extend] using h
  omega

theorem natDigits_digit (d : Digit) : natDigits d.val = [d.char] :=
  Nat.toDigits_of_lt_base d.isLt

/-- **Digits without a leading zero are the digits of their number.** -/
theorem natDigits_extend {ds : List Digit} (hne : ds ≠ [])
    (hzero : ds.head? = some .zero → ds = [.zero]) : natDigits (extend 0 ds) = digitsText ds := by
  -- from the last digit, as a number is ten times the number before that digit and the digit
  induction ds using List.reverseRecOn with
  | nil => exact absurd rfl hne
  | append_singleton ds d ih =>
    rw [extend_append, extend_singleton, digitsText_append]
    by_cases hds : ds = []
    · subst hds
      change natDigits (0 * 10 + d.val) = [d.char]
      rw [Nat.zero_mul, Nat.zero_add, natDigits_digit]
    · -- the digits before the last do not begin with zero, or all would be a single zero
      have hhead : ds.head? ≠ some .zero := fun h =>
        append_singleton_ne_zero hds d (hzero (by rw [List.head?_append_of_ne_nil _ hds, h]))
      have hpos := extend_pos hds hhead
      calc natDigits (extend 0 ds * 10 + d.val)
          = natDigits (10 * extend 0 ds + d.val) := by rw [Nat.mul_comm]
        _ = natDigits (extend 0 ds) ++ natDigits d.val :=
          (Nat.toDigits_append_toDigits (by decide) hpos d.isLt).symm
        _ = digitsText ds ++ digitsText [d] := by
          rw [ih hds fun h => absurd h hhead, natDigits_digit]
          rfl

/-- A digit is neither a sign nor a mark. -/
theorem Digit.char_ne (d : Digit) : d.char ≠ '-' ∧ d.char ≠ '.' ∧ d.char ≠ 'e' := by
  revert d
  decide

theorem Digit.char_injective : Function.Injective Digit.char := by
  intro d e h
  have hval := congrArg digit? h
  rw [digit?_char, digit?_char] at hval
  exact Fin.ext (Option.some.inj hval)

/-- Digits are made of the characters of digits. -/
theorem exists_char_of_mem_digitsText {ds : List Digit} {c : Char} (h : c ∈ digitsText ds) :
    ∃ d : Digit, d.char = c := by
  obtain ⟨d, -, hd⟩ := List.mem_map.mp h
  exact ⟨d, hd⟩

/-! ### Integer literals -/

namespace Literal

/-- **An integer as it is spelled**: neither point nor exponent. -/
def IsInteger (l : Literal) : Prop := l.fraction = [] ∧ l.exponent = none

/-- Whether an integer literal is kept exactly: it is not `-0`, and the integer that it denotes is
one of 64 bits, signed or not. -/
def IsExact (l : Literal) : Prop :=
  l.text ≠ ['-', '0'] ∧ -0x8000000000000000 ≤ l.integer ∧ l.integer ≤ 0xFFFFFFFFFFFFFFFF

/-- **What an integer literal is shown as.** -/
structure ShownAs (l : Literal) (cs : List Char) : Prop where
  /-- It is shown as it was spelled exactly if it is kept exactly. -/
  verbatim : cs = l.text ↔ l.IsExact
  /-- What is not kept exactly does not look like an integer. -/
  marked : ¬l.IsExact → '.' ∈ cs ∨ 'e' ∈ cs
  /-- What is shown is no other integer literal. -/
  unmistaken : ∀ m : Literal, m.IsInteger → cs = m.text → m.text = l.text

variable {l : Literal} {x : Number}

/-- An integer literal is its sign and its digits. -/
theorem IsInteger.text_eq (h : l.IsInteger) :
    l.text = signText l.negative ++ digitsText l.whole := by
  simp [text, h.1, h.2, fractionText, exponentText]

/-- An integer literal has no mark. -/
theorem IsInteger.not_marked (h : l.IsInteger) : ¬('.' ∈ l.text ∨ 'e' ∈ l.text) := by
  have hall : ∀ c ∈ l.text, c ≠ '.' ∧ c ≠ 'e' := by
    intro c hc
    rw [h.text_eq, List.mem_append] at hc
    rcases hc with hsign | hdigit
    · unfold signText at hsign
      split at hsign
      · rw [List.mem_singleton.mp hsign]
        decide
      · exact absurd hsign List.not_mem_nil
    · obtain ⟨d, rfl⟩ := exists_char_of_mem_digitsText hdigit
      exact d.char_ne.2
  rintro (hpoint | hmark)
  · exact (hall _ hpoint).1 rfl
  · exact (hall _ hmark).2 rfl

/-- **Only a zero with a minus sign is spelled `-0`.** -/
theorem IsInteger.text_eq_negZero_iff (h : l.IsInteger) :
    l.text = ['-', '0'] ↔ l.negative = true ∧ l.integer = 0 := by
  rw [integer_eq_zero_iff, h.text_eq]
  constructor
  · intro htext
    cases hneg : l.negative with
    | true =>
      rw [hneg] at htext
      have hdigits : digitsText l.whole = digitsText [.zero] := (List.cons.inj htext).2
      rw [List.map_injective_iff.mpr Digit.char_injective hdigits]
      exact ⟨rfl, rfl⟩
    | false =>
      -- a digit is no minus sign
      rw [hneg] at htext
      have hminus : '-' ∈ digitsText l.whole := by
        change digitsText l.whole = _ at htext
        rw [htext]
        exact List.mem_cons_self
      obtain ⟨d, hd⟩ := exists_char_of_mem_digitsText hminus
      exact absurd hd d.char_ne.1
  · rintro ⟨hneg, hzero⟩
    -- digits that do not begin with zero are no zero
    have hhead : l.whole.head? = some .zero := by
      by_contra hhead
      have hpos := extend_pos l.whole_ne hhead
      omega
    rw [hneg, l.noLeadingZero hhead]
    rfl

/-- An integer literal is the text of the integer that it denotes, unless it is `-0`. -/
theorem IsInteger.intDigits_eq (h : l.IsInteger) (hzero : l.text ≠ ['-', '0']) :
    intDigits l.integer = l.text := by
  have hdigits := natDigits_extend l.whole_ne l.noLeadingZero
  have hpos : l.negative = true → extend 0 l.whole ≠ 0 := fun hneg hval =>
    hzero (h.text_eq_negZero_iff.mpr ⟨hneg, integer_eq_zero_iff.mpr hval⟩)
  rw [h.text_eq, ← hdigits]
  unfold integer
  -- with a minus sign the number is below zero, as it is no zero
  cases hneg : l.negative with
  | false => rfl
  | true =>
    obtain ⟨n, hn⟩ := Nat.exists_eq_succ_of_ne_zero (hpos hneg)
    rw [hn]
    rfl

/-- **An integer literal is kept as a whole number exactly if it is kept exactly.** -/
theorem IsInteger.kept?_eq (h : l.IsInteger) :
    (∃ n, l.kept? = some n ∧ n.val = l.integer ∧ l.IsExact) ∨ (l.kept? = none ∧ ¬l.IsExact) := by
  unfold kept? IsExact
  rw [Ne, h.text_eq_negZero_iff]
  -- a negative zero is not kept, and for all others only the range matters
  by_cases hzero : l.negative = true ∧ l.integer = 0
  · rw [if_neg fun hall => hall.2.2 hzero]
    exact .inr ⟨rfl, fun hexact => hexact.1 hzero⟩
  · rw [if_pos ⟨h.1, h.2, hzero⟩]
    unfold Whole.ofInt?
    split
    · next hrange => exact .inl ⟨_, rfl, rfl, hzero, by omega, by omega⟩
    · next hrange => exact .inr ⟨rfl, fun hexact => hrange ⟨by omega, by omega⟩⟩

/-- **What a number is written as** that an integer literal stands for. -/
theorem IsInteger.shownAs (h : l.IsInteger) (hx : l.number? = some x) : l.ShownAs x.chars := by
  rcases h.kept?_eq with ⟨n, hn, hval, hexact⟩ | ⟨hnone, hexact⟩
  · obtain rfl := Option.some.inj ((number?_of_kept? hn).symm.trans hx)
    have hchars : (Number.whole n).chars = l.text := by
      rw [Number.chars, hval, h.intDigits_eq hexact.1]
    exact ⟨⟨fun _ => hexact, fun _ => hchars⟩, fun hnot => absurd hexact hnot,
      fun m _ hm => hm.symm.trans hchars⟩
  · -- the number is a binary64 one, whose text no integer literal is
    unfold number? at hx
    rw [hnone] at hx
    obtain ⟨m, -, rfl⟩ := Option.map_eq_some_iff.mp hx
    have hmark := realFormat.mark_mem_write { negative := l.negative, magnitude := m }
    have hother : ∀ i : Literal, i.IsInteger → Number.chars (.real _) ≠ i.text :=
      fun i hi heq => hi.not_marked (heq ▸ hmark)
    exact ⟨⟨fun heq => absurd heq (hother l h), fun hnot => absurd hnot hexact⟩, fun _ => hmark,
      fun i hi heq => absurd heq (hother i hi)⟩

/-! ### Literals out of range -/

/-- A real number is refused for its size only. -/
theorem real_eq_error {negative : Bool} {s : Nat} {p : Int} {cause : Cause}
    (h : real negative s p = .error cause) : cause = .numberOutOfRange := by
  unfold real at h
  cases hm : assemble s p with
  | none =>
    rw [hm] at h
    exact (Except.error.inj h).symm
  | some m =>
    rw [hm] at h
    exact absurd h (by simp)

/-- A whole number is refused for its size only. -/
theorem whole_eq_error {negative : Bool} {s : Nat} {cause : Cause}
    (h : Json.whole negative s = .error cause) : cause = .numberOutOfRange := by
  unfold Json.whole at h
  dsimp only at h
  split at h
  · exact real_eq_error h
  · split at h
    · exact absurd h (by simp)
    · exact real_eq_error h

/-- **An integer literal is refused for its size only.** -/
theorem IsInteger.finish_eq_error (h : l.IsInteger) (hx : l.number? = none) :
    ∃ n, l.state? = some n ∧ n.finish = .error .numberOutOfRange := by
  have hstate : l.state? = some (.afterWhole l.negative l.whole) := by
    simp [state?, mantissa, h.1, h.2]
  refine ⟨_, hstate, ?_⟩
  -- the literal stands for no number, so its state has none at the end
  have hnone := (finish_state hstate).trans hx
  cases hfinish : (Numeral.afterWhole l.negative l.whole).finish with
  | ok y => simp [hfinish, Except.toOption] at hnone
  | error cause =>
    refine congrArg Except.error ?_
    unfold Numeral.afterWhole at hfinish
    split at hfinish
    · exact whole_eq_error hfinish
    · split at hfinish
      · exact whole_eq_error hfinish
      · exact real_eq_error hfinish

end Literal

end Json

open Json

namespace Payload

variable {layers : List Layer} {q r : List Char} {l : Literal} {x : Number}

/-- Whether a text is refused for a number that is out of range. -/
def IsOutOfRange (text : String) : Prop :=
  ∃ place, read text =
    .error (.invalidPayload (Json.Fault.message { cause := .numberOutOfRange, place := place }))

/-- **A text is refused** for an integer literal in it that stands for no number. -/
theorem isOutOfRange_of_number? (hplace : Surrounds layers q r) (hne : layers ≠ [])
    (hdepth : (fill layers .null).depth ≤ 127) (hl : l.IsInteger) (hx : l.number? = none) :
    IsOutOfRange (.ofList (q ++ l.text ++ r)) := by
  obtain ⟨s, stack, hq, hs, -⟩ := hplace.awaits hdepth
  obtain ⟨c, r, rfl, hc⟩ := hplace.endsValue hne
  obtain ⟨n, hstate, hfinish⟩ := hl.finish_eq_error hx
  -- the literal ends at the character behind it, and only then it is looked at
  have hfeed : State.start.feed (q ++ l.text) = .ok ⟨.number n, stack⟩ :=
    (State.feed_append hq l.text).trans (feed_literal hstate hs)
  have hstep : State.step ⟨.number n, stack⟩ c = .error (.numberOutOfRange, 0) := by
    simp only [State.step, Literal.step_endsValue hstate hc, hfinish]
  obtain ⟨place, hrun⟩ := State.run_append hfeed {} (c :: r)
  refine ⟨place.within c 0, read_of_fault ?_⟩
  rw [Json.read, String.toList_ofList, hrun, State.run, hstep]

/-- **A number at a place is read there.** -/
theorem read_at (hplace : Surrounds layers q r)
    (hobject : (fill layers .null).isObject = true) (hne : layers ≠ [])
    (hdepth : (fill layers .null).depth ≤ 127) (hx : l.number? = some x) :
    read (.ofList (q ++ l.text ++ r)) = .ok (fill layers (.number x)).merged := by
  have htext : IsText (.ofList (q ++ l.text ++ r)) (fill layers (.number x)) := by
    have hsame : (fill layers (.number x)).depth = (fill layers .null).depth :=
      depth_fill_congr rfl
    refine ⟨?_, hsame.trans_le hdepth⟩
    rw [String.toList_ofList]
    exact hplace.spellsPadded (.number hx)
  refine read_of_isObject (read_eq_ok_iff_isText.mpr ⟨_, htext, rfl⟩) ?_
  rw [Value.isObject_merged, isObject_fill hne _ .null, hobject]

/-- **Integers are exact, or visibly no integers.** An integer literal stands at a place in a text
that is a payload otherwise. If no key on the way to the place is given again, the text is refused
for the size of the literal, or the literal is shown in the compact text at the same place. If one
is, the payload does not depend on the literal, unless that is refused for its size. -/
theorem read_integer (hplace : Surrounds layers q r)
    (hobject : (fill layers .null).isObject = true) (hdepth : (fill layers .null).depth ≤ 127) :
    ((∀ layer ∈ layers, layer.IsLast) →
      ∃ kept, List.Forall₂ Layer.KeptAs layers kept ∧ ∀ l : Literal, l.IsInteger →
        (¬l.IsExact ∧ IsOutOfRange (.ofList (q ++ l.text ++ r))) ∨
        ∃ x : Number, read (.ofList (q ++ l.text ++ r)) = .ok (fill kept (.number x)) ∧
          (fill kept (.number x)).compact =
            .ofList (charsBefore kept ++ x.chars ++ charsAfter kept) ∧
          l.ShownAs x.chars) ∧
    ((∃ layer ∈ layers, ¬layer.IsLast) →
      ∃ v, ∀ l : Literal, l.IsInteger →
        (¬l.IsExact ∧ IsOutOfRange (.ofList (q ++ l.text ++ r))) ∨
        read (.ofList (q ++ l.text ++ r)) = .ok v) := by
  have hne : layers ≠ [] := by
    rintro rfl
    exact absurd hobject (by simp [fill, Value.isObject])
  -- a literal stands for no number, and for its size, or for one that is read
  have hread : ∀ l : Literal, l.IsInteger →
      (¬l.IsExact ∧ IsOutOfRange (.ofList (q ++ l.text ++ r))) ∨
      ∃ x : Number, read (.ofList (q ++ l.text ++ r)) = .ok (fill layers (.number x)).merged ∧
        l.ShownAs x.chars := by
    intro l hl
    cases hx : l.number? with
    | none =>
      refine .inl ⟨?_, isOutOfRange_of_number? hplace hne hdepth hl hx⟩
      rcases hl.kept?_eq with ⟨n, hn, -⟩ | ⟨-, hexact⟩
      · exact absurd ((Literal.number?_of_kept? hn).symm.trans hx) (by simp)
      · exact hexact
    | some x => exact .inr ⟨x, read_at hplace hobject hne hdepth hx, hl.shownAs hx⟩
  constructor
  · intro hlast
    obtain ⟨kept, hkept, hfill⟩ := exists_kept hlast
    refine ⟨kept, hkept, fun l hl => (hread l hl).imp_right ?_⟩
    rintro ⟨x, hx, hshown⟩
    refine ⟨x, ?_, ?_, hshown⟩
    · rw [hx, hfill, Value.merged]
    · rw [Value.compact, chars_fill, Value.chars]
  · -- the literal is under a key that is given again, so nothing is left of it
    intro hlost
    refine ⟨(fill layers .null).merged, fun l hl => (hread l hl).imp_right ?_⟩
    rintro ⟨x, hx, -⟩
    rw [hx, merged_fill_of_not_isLast hlost (.number x) .null]

/-- A place in an array under the key `a`. -/
def nestedLayers : List Layer := [.array [.null] [], .object [] "a" [("b", .bool true)]]

def nestedFront : List Char := "\x7b\"a\":[null, ".toList

def nestedBack : List Char := " ],\"b\":true\x7d".toList

theorem surrounds_nested : Surrounds nestedLayers nestedFront nestedBack := by
  have hblank : Blank [' '] := by simp [Blank]
  have hkey : SpellsString ['"', 'a', '"'] "a" := spellsString_stringChars "a"
  have hmember : SpellsMember ['"', 'b', '"', ':', 't', 'r', 'u', 'e'] ("b", .bool true) :=
    @SpellsMember.of_spells _ "b" _ .true
  have hobject := Surrounds.object (.nil .nil .nil) .nil .nil hkey .nil .nil .nil
    (.cons hmember .nil)
  exact .array hobject (.cons (.of_spells .null) .nil) hblank hblank .nil

theorem read_integer_nested :
    Surrounds nestedLayers nestedFront nestedBack ∧
      (fill nestedLayers .null).isObject = true ∧ (fill nestedLayers .null).depth ≤ 127 ∧
      (∀ layer ∈ nestedLayers, layer.IsLast) ∧
      ∃ kept, List.Forall₂ Layer.KeptAs nestedLayers kept ∧ ∀ l : Literal, l.IsInteger →
        (¬l.IsExact ∧ IsOutOfRange (.ofList (nestedFront ++ l.text ++ nestedBack))) ∨
        ∃ x : Number,
          read (.ofList (nestedFront ++ l.text ++ nestedBack)) = .ok (fill kept (.number x)) ∧
          (fill kept (.number x)).compact =
            .ofList (charsBefore kept ++ x.chars ++ charsAfter kept) ∧
          l.ShownAs x.chars := by
  have hobject : (fill nestedLayers .null).isObject = true := rfl
  have hdepth : (fill nestedLayers .null).depth ≤ 127 := by decide
  have hlast : ∀ layer ∈ nestedLayers, layer.IsLast := by simp [nestedLayers, Layer.IsLast]
  exact ⟨surrounds_nested, hobject, hdepth, hlast,
    (read_integer surrounds_nested hobject hdepth).1 hlast⟩

end Payload

end TokenForge
