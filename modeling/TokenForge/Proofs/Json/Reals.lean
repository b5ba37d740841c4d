import TokenForge.Proofs.Json.Decimals

/-!
# Fractions and exponents written and read again

The shortest decimal of a binary64 number rounds to the number and to no other. The reader does not
round the decimal, though, but its significand and its power of ten, each by itself, and then what
they make. So the text of a number is never refused, and its sign is kept, but what is read is the
number only where nothing was rounded on the way (`reread_places`). An object is read from its
compact text as it was except for such numbers (`Payload.read_compact_reals`).

* `reread` — a number as it is read from its text;
* `places` — how many numbers are rounded on the way, and so how far off it is at most;
* `Payload.rounded_changes` — a number that is not read as it was.
-/

namespace TokenForge.Json

/-! ### Numbers as they are read again -/

/-- **A number as it is read from its text.** -/
def reread (x : Binary64) : Binary64 :=
  { x with
    magnitude :=
      (assemble (spelled x.magnitude).1 (spelled x.magnitude).2).getD x.magnitude }

/-- How many numbers are rounded on the way. -/
def places (x : Binary64) : Nat :=
  roundings (spelled x.magnitude).1 (spelled x.magnitude).2

/-- **No text takes more than three roundings.** -/
theorem roundings_le (s : Nat) (p : Int) : roundings s p ≤ 3 := by
  unfold roundings
  split <;> split <;> split <;> omega

/-- Whether the text of a magnitude is in range. -/
def IsInRange (m : Magnitude) : Prop := (assemble (spelled m).1 (spelled m).2).isSome = true

instance (m : Magnitude) : Decidable (IsInRange m) := inferInstanceAs (Decidable (_ = true))

/-- The three greatest magnitudes are read again, as the kernel finds out. -/
theorem isInRange_greatest : ∀ k : Fin 3, IsInRange
    { bits := infiniteBits - 1 - k, finite := (Nat.sub_le _ _).trans_lt (by decide) } := by
  decide +kernel

/-- The texts of the greatest magnitudes are in range. -/
theorem isInRange_of_le {m : Magnitude} (h : infiniteBits ≤ m.bits + 3) : IsInRange m := by
  obtain ⟨bits, hfinite⟩ := m
  dsimp only at h
  -- the bits are at most two below the greatest
  obtain ⟨k, hk, rfl⟩ : ∃ k, k < 3 ∧ bits = infiniteBits - 1 - k :=
    ⟨infiniteBits - 1 - bits, by omega, by omega⟩
  exact isInRange_greatest ⟨k, hk⟩

/-- **A number is read from its text**, as many places off at most as numbers are rounded on the
way. -/
theorem assemble_spelled (m : Magnitude) :
    ∃ w, assemble (spelled m).1 (spelled m).2 = some w ∧
      w.bits ≤ m.bits + roundings (spelled m).1 (spelled m).2 ∧
      m.bits ≤ w.bits + roundings (spelled m).1 (spelled m).2 := by
  obtain ⟨hrounds, hmax, hlow, hhigh⟩ := rounds_spelled m
  have hleast : -((maxPower + 22 : Nat) : Int) ≤ -324 := by decide
  obtain ⟨c, hbelow, habove, hfinds⟩ := assemble_places hmax (hleast.trans hlow) hhigh hrounds
  -- what is found has bits, and they may be beyond the greatest magnitude
  by_cases hfinite : c < infiniteBits
  · rw [Magnitude.ofBits?_of_lt hfinite] at hfinds
    exact ⟨_, hfinds, hbelow, habove⟩
  · -- only one of the greatest could be too large, and they are not
    have hthree := roundings_le (spelled m).1 (spelled m).2
    have hm := isInRange_of_le (m := m) (by omega)
    rw [IsInRange, hfinds, Magnitude.ofBits?, dif_neg hfinite] at hm
    exact absurd hm (by simp)

/-- A number is known by its sign and its bits. -/
theorem ext_bits {x y : Binary64} (hnegative : x.negative = y.negative)
    (hbits : x.magnitude.bits = y.magnitude.bits) : x = y := by
  obtain ⟨negative, bits, hfinite⟩ := x
  obtain ⟨negative', bits', hfinite'⟩ := y
  dsimp only at hnegative hbits
  subst hnegative hbits
  rfl

/-- **What is read of the text of a number**: the sign is kept, and the bits are as many places off
at most as numbers are rounded on the way. -/
theorem reread_places (x : Binary64) :
    (reread x).negative = x.negative ∧
      (reread x).magnitude.bits ≤ x.magnitude.bits + places x ∧
      x.magnitude.bits ≤ (reread x).magnitude.bits + places x := by
  obtain ⟨w, hw, hbelow, habove⟩ := assemble_spelled x.magnitude
  -- what is read is found, so nothing usual takes its place
  have hmagnitude : (reread x).magnitude = w := by rw [reread, hw, Option.getD_some]
  have hnegative : (reread x).negative = x.negative := by rw [reread]
  rw [hmagnitude, hnegative, places]
  exact ⟨rfl, hbelow, habove⟩

/-- **Where nothing is rounded on the way the number is read as it was.** -/
theorem reread_eq_self {x : Binary64} (h : places x = 0) : reread x = x := by
  obtain ⟨hnegative, hbelow, habove⟩ := reread_places x
  rw [h, Nat.add_zero] at hbelow habove
  exact ext_bits hnegative (Nat.le_antisymm hbelow habove)

/-- The text of a number spells the number that is read again. -/
theorem spells_real (x : Binary64) :
    Spells (realFormat.write x) (.number (.real (reread x))) := by
  obtain ⟨l, htext, hnegative, hkept, hmagnitude⟩ := exists_literal x
  obtain ⟨w, hw, -, -⟩ := assemble_spelled x.magnitude
  -- no real number is written like a whole one, so it is the magnitude that counts
  have hnumber : l.number? = some (.real (reread x)) := by
    rw [Literal.number?, hkept, hmagnitude, reread, hw, hnegative]
    rfl
  rw [← htext]
  exact .number hnumber

/-- A number of either kind as it is read from its text. -/
def rereadNumber : Number → Number
  | .whole n => .whole n
  | .real x => .real (reread x)

/-- **A number is written so that it is read again**, rounded or not. -/
theorem spells_rereadNumber (n : Number) : Spells n.chars (.number (rereadNumber n)) := by
  cases n with
  | whole n => exact spells_whole n
  | real x => exact spells_real x

/-- Whether a value is no number but one that is read as it was. -/
def Value.IsExact : Value → Prop
  | .number (.real x) => places x = 0
  | _ => True

/-- A number that is exact is read as it was. -/
theorem rereadNumber_eq_self {n : Number} (h : (Value.number n).IsExact) : rereadNumber n = n := by
  cases n with
  | whole n => rfl
  | real x => exact congrArg Number.real (reread_eq_self h)

end TokenForge.Json

namespace TokenForge.Payload

open Json

/-- **The compact text of an object is read as the object with its numbers reread.** -/
theorem read_mapNumbers {v : Value} (hobject : v.isObject = true)
    (hkeys : v.All Value.HasDistinctKeys) (hdepth : v.depth ≤ 127) :
    read v.compact = .ok (v.mapNumbers rereadNumber) := by
  -- the compact text spells the value with its numbers reread
  have htext : IsText v.compact (v.mapNumbers rereadNumber) := by
    refine ⟨?_, by rwa [v.depth_mapNumbers]⟩
    rw [Value.compact, String.toList_ofList]
    exact .of_spells (spells_mapNumbers (fun n _ => spells_rereadNumber n) v hkeys)
  -- its keys are distinct, so nothing is put together
  have hmerged := (v.mapNumbers rereadNumber).merged_eq_self (v.distinctKeys_mapNumbers _ hkeys)
  refine read_of_isObject (read_eq_ok_iff_isText.mpr ⟨_, htext, hmerged.symm⟩) ?_
  rwa [v.isObject_mapNumbers]

/-- **Fractions and exponents written and read again.** An object with distinct keys is read from
its compact text as the object with each binary64 number reread. Rereading keeps the sign and moves
a number by no more places than numbers are rounded in reading its text; so an object with none that
is rounded comes back as it was. -/
theorem read_compact_reals {v : Value} (hobject : v.isObject = true)
    (hkeys : v.All Value.HasDistinctKeys) (hdepth : v.depth ≤ 127) :
    read v.compact = .ok (v.mapNumbers rereadNumber) ∧
      (∀ x : Binary64, (reread x).negative = x.negative ∧
        (reread x).magnitude.bits ≤ x.magnitude.bits + places x ∧
        x.magnitude.bits ≤ (reread x).magnitude.bits + places x) ∧
      (v.All Value.IsExact → read v.compact = .ok v) := by
  have hread := read_mapNumbers hobject hkeys hdepth
  refine ⟨hread, reread_places, fun hexact => ?_⟩
  rw [hread, v.mapNumbers_eq_self (fun _ hn => rereadNumber_eq_self hn) hexact]

def half : Binary64 :=
  { negative := false, magnitude := { bits := 0x3FE0000000000000, finite := by decide } }

/-- A tenth below zero, which is no binary fraction, but the nearest one. -/
def tenthBelow : Binary64 :=
  { negative := true, magnitude := { bits := 0x3FB999999999999A, finite := by decide } }

def fractions : Value :=
  .object [("half", .number (.real half)), ("less", .array [.number (.real tenthBelow)])]

/-- Both are read from their compact text as they were. -/
theorem read_compact_fractions :
    fractions.isObject = true ∧ fractions.All Value.HasDistinctKeys ∧ fractions.depth ≤ 127 ∧
      fractions.All Value.IsExact ∧ fractions.compact = "\x7b\"half\":0.5,\"less\":[-0.1]\x7d" ∧
      read fractions.compact = .ok fractions := by
  have hobject : fractions.isObject = true := rfl
  have hkeys : fractions.All Value.HasDistinctKeys := by
    simp [fractions, Value.All, AllMembers, AllItems, Value.HasDistinctKeys]
  have hdepth : fractions.depth ≤ 127 := by decide
  have hexact : fractions.All Value.IsExact := by
    have hhalf : places half = 0 := by decide +kernel
    have htenth : places tenthBelow = 0 := by decide +kernel
    exact ⟨trivial, hhalf, ⟨trivial, htenth, trivial⟩, trivial⟩
  exact ⟨hobject, hkeys, hdepth, hexact, by decide +kernel,
    (read_compact_reals hobject hkeys hdepth).2.2 hexact⟩

/-- The greatest odd number of binary64. -/
def greatestOdd : Binary64 :=
  { negative := false, magnitude := { bits := 0x433FFFFFFFFFFFFF, finite := by decide } }

/-- The even number before it. -/
def evenBefore : Binary64 :=
  { negative := false, magnitude := { bits := 0x433FFFFFFFFFFFFE, finite := by decide } }

/-- With the zero behind its point the number has more than 53 bits, and what is read is rounded
twice. -/
theorem reread_greatestOdd : reread greatestOdd = evenBefore := by
  have hspelled : spelled greatestOdd.magnitude = (90071992547409910, -1) := by decide +kernel
  have hf : Magnitude.ofRatio? 90071992547409910 1 =
      some { bits := 0x4373FFFFFFFFFFFF, finite := by decide } := by decide +kernel
  have ht : Magnitude.powTen? 1 = some { bits := 0x4024000000000000, finite := by decide } := by
    decide +kernel
  have hquotient : Magnitude.div? { bits := 0x4373FFFFFFFFFFFF, finite := by decide }
      { bits := 0x4024000000000000, finite := by decide } =
      some { bits := 0x433FFFFFFFFFFFFE, finite := by decide } := by decide +kernel
  -- the significand of 54 bits is rounded up, and its tenth down to the even neighbour
  have hassemble := assemble_div hf ht (by decide) Nat.one_pos
  rw [hquotient] at hassemble
  rw [reread, hspelled, ← Int.natCast_one, hassemble, Option.getD_some, greatestOdd, evenBefore]

/-- **The greatest odd number is not read as it was written**, but as the one before it. -/
theorem rounded_changes :
    greatestOdd.magnitude.units = 9007199254740991 * unitsPerOne ∧
      (Value.object [("a", .number (.real greatestOdd))]).compact =
        "\x7b\"a\":9007199254740991.0\x7d" ∧
      read (Value.object [("a", .number (.real greatestOdd))]).compact =
        .ok (.object [("a", .number (.real evenBefore))]) ∧
      evenBefore ≠ greatestOdd := by
  refine ⟨by decide +kernel, by decide +kernel, ?_, by decide⟩
  have hkeys : (Value.object [("a", .number (.real greatestOdd))]).All Value.HasDistinctKeys := by
    simp [Value.All, AllMembers, Value.HasDistinctKeys]
  rw [read_mapNumbers rfl hkeys (by decide), Value.mapNumbers, mapMembers, mapMembers,
    Value.mapNumbers, rereadNumber, reread_greatestOdd]

end TokenForge.Payload
