import TokenForge.Json.Writer
import TokenForge.Proofs.Json.Language

/-!
# Values written and read again

The compact text of a value spells the value, if all its numbers are whole, and a value whose
objects hold each key once is what remains of it when members are put together. So an object with
whole numbers, distinct keys and at most 127 nested containers comes back from its compact text as
it was (`Payload.read_compact`).

* `Value.mapNumbers` and `spells_mapNumbers` — what is written is what is spelled, if each number
  is;
* `Value.merged_eq_self` — nothing is put together where keys are distinct.
-/

namespace TokenForge.Json

/-! ### Numbers -/

/-- **The digits of a natural number**, as a literal may have them before the point. -/
theorem exists_digits (n : Nat) :
    ∃ ds : List Digit, ds ≠ [] ∧ (ds.head? = some .zero → ds = [.zero]) ∧
      digitsText ds = natDigits n ∧ extend 0 ds = n := by
  -- by induction on the number, as its last digit is the first to be found
  induction n using Nat.strongRecOn with
  | ind n ih =>
    by_cases hsmall : n < 10
    · refine ⟨[⟨n, hsmall⟩], by simp, fun h => by rw [Option.some.inj h], ?_, ?_⟩
      · unfold natDigits
        rw [Nat.toDigits_of_lt_base hsmall]
        rfl
      · simp [extend]
    · obtain ⟨ds, hne, hzero, htext, hvalue⟩ := ih (n / 10) (by omega)
      refine ⟨ds ++ [⟨n % 10, Nat.mod_lt n (by decide)⟩], by simp, fun h => ?_, ?_, ?_⟩
      · -- a leading zero would be all of `n / 10`, which is not zero
        rw [List.head?_append_of_ne_nil _ hne] at h
        rw [hzero h] at hvalue
        have hquot : n / 10 = 0 := hvalue.symm
        omega
      · rw [digitsText_append, htext]
        change Nat.toDigits 10 (n / 10) ++ [Nat.digitChar (n % 10)] = Nat.toDigits 10 n
        exact (Nat.toDigits_of_base_le (by decide) (Nat.not_lt.mp hsmall)).symm
      · rw [extend_append, hvalue, extend_singleton]
        change n / 10 * 10 + n % 10 = n
        omega

/-- The integer literal of some digits. -/
def Literal.ofDigits (negative : Bool) (ds : List Digit) (hne : ds ≠ [])
    (hzero : ds.head? = some .zero → ds = [.zero]) : Literal where
  negative := negative
  whole := ds
  fraction := []
  exponent := none
  whole_ne := hne
  noLeadingZero := hzero

/-- A literal that is kept as an integer stands for it. -/
theorem Literal.number?_of_kept? {l : Literal} {n : Whole} (h : l.kept? = some n) :
    l.number? = some (.whole n) := by
  unfold number?
  rw [h]

/-- **A literal of an integer in range** that is no negative zero stands for that integer. -/
theorem Literal.number?_ofDigits {negative : Bool} {ds : List Digit} {hne : ds ≠ []}
    {hzero : ds.head? = some .zero → ds = [.zero]} {n : Whole}
    (hn : (ofDigits negative ds hne hzero).integer = n.val) (h0 : negative = true → n.val ≠ 0) :
    (ofDigits negative ds hne hzero).number? = some (.whole n) := by
  have hof : Whole.ofInt? n.val = some n := dif_pos ⟨n.low, n.high⟩
  apply number?_of_kept?
  unfold kept?
  rw [hn, if_pos ⟨rfl, rfl, fun h => h0 h.1 h.2⟩, hof]

/-- **A whole number is spelled by its digits.** -/
theorem spells_whole (n : Whole) : Spells (intDigits n.val) (.number (.whole n)) := by
  cases hval : n.val with
  | ofNat k =>
    -- without a sign, zero included
    obtain ⟨ds, hne, hzero, htext, hvalue⟩ := exists_digits k
    have hl : (Literal.ofDigits false ds hne hzero).text = intDigits (Int.ofNat k) := by
      simp [Literal.ofDigits, Literal.text, Literal.signText, Literal.fractionText,
        Literal.exponentText, htext, intDigits]
    have hint : (Literal.ofDigits false ds hne hzero).integer = n.val := by
      rw [hval]
      simp [Literal.ofDigits, Literal.integer, hvalue]
    rw [← hl]
    exact .number (Literal.number?_ofDigits hint (by simp))
  | negSucc k =>
    -- behind a minus sign, and never `-0`
    obtain ⟨ds, hne, hzero, htext, hvalue⟩ := exists_digits (k + 1)
    have hl : (Literal.ofDigits true ds hne hzero).text = intDigits (Int.negSucc k) := by
      simp [Literal.ofDigits, Literal.text, Literal.signText, Literal.fractionText,
        Literal.exponentText, htext, intDigits]
    have hint : (Literal.ofDigits true ds hne hzero).integer = n.val := by
      rw [hval]
      simp only [Literal.ofDigits, Literal.integer, if_true, hvalue]
      rfl
    rw [← hl]
    exact .number (Literal.number?_ofDigits hint (by rw [hval]; simp))

/-! ### Strings -/

/-- A control without a short escape is spelled by its number. -/
theorem codeUnit_control {n : Nat} (h : n < 0x20) :
    CodeUnit ['0', '0', hexDigit (n / 16), hexDigit (n % 16)] n := by
  refine ⟨rfl, ?_⟩
  have hzero : HexDigit '0' 0 := .inl rfl
  have hhigh : HexDigit (hexDigit (n / 16)) ⟨n / 16, by omega⟩ := .inl rfl
  have hlow : HexDigit (hexDigit (n % 16)) ⟨n % 16, by omega⟩ := .inl rfl
  -- its four digits one after the other
  have hhex := (((Hex.nil.snoc hzero).snoc hzero).snoc hhigh).snoc hlow
  have hn : (((0 * 16 + 0) * 16 + 0) * 16 + n / 16) * 16 + n % 16 = n := by omega
  simp only [Fin.val_zero, hn] at hhex
  exact hhex

/-- **A character is spelled by what is written for it.** -/
theorem spellsChars_escape (c : Char) : SpellsChars (escape c) [c] := by
  unfold escape
  -- quote and backslash, what needs no escape, the controls with a short one, and the others
  split_ifs with hquote hslash hlow hb ht hn hf hr
  · subst hquote
    exact .short (by decide) .nil
  · subst hslash
    exact .short (by decide) .nil
  · exact .plain hlow hquote hslash .nil
  · subst hb
    exact .short (by decide) .nil
  · subst ht
    exact .short (by decide) .nil
  · subst hn
    exact .short (by decide) .nil
  · subst hf
    exact .short (by decide) .nil
  · subst hr
    exact .short (by decide) .nil
  · have hchar := SpellsChars.unit (codeUnit_control (Nat.not_le.mp hlow))
      (.inl (by omega)) .nil
    rw [Char.ofNat_toNat] at hchar
    exact hchar

/-- A string is spelled by what is written for it. -/
theorem spellsString_stringChars (s : String) : SpellsString (stringChars s) s := by
  refine ⟨s.toList.flatMap escape, rfl, ?_⟩
  induction s.toList with
  | nil => exact .nil
  | cons c cs ih =>
    rw [List.flatMap_cons]
    exact (spellsChars_escape c).append ih

/-! ### Values -/

/-- Whether a value is no number but a whole one. -/
def Value.IsWhole : Value → Prop
  | .number (.real _) => False
  | _ => True

/-- Whether a value holds no key twice. -/
def Value.HasDistinctKeys : Value → Prop
  | .object ms => (ms.map Prod.fst).Nodup
  | _ => True

/-- White space may be left out around a value. -/
theorem SpellsPadded.of_spells {t : List Char} {v : Value} (h : Spells t v) : SpellsPadded t v := by
  have hpad := SpellsPadded.mk .nil h .nil
  simpa using hpad

/-- White space may be left out around a key and its value. -/
theorem SpellsMember.of_spells {t : List Char} {k : String} {v : Value} (h : Spells t v) :
    SpellsMember (stringChars k ++ ':' :: t) (k, v) := by
  have hmem := SpellsMember.mk .nil (spellsString_stringChars k) .nil (.of_spells h)
  simpa using hmem

/-! ### Values whose numbers are replaced -/

mutual

/-- **A value with each of its numbers replaced.** -/
def Value.mapNumbers (f : Number → Number) : Value → Value
  | .null => .null
  | .bool b => .bool b
  | .number n => .number (f n)
  | .string s => .string s
  | .array vs => .array (mapItems f vs)
  | .object ms => .object (mapMembers f ms)

/-- The items of an array with their numbers replaced. -/
def mapItems (f : Number → Number) : List Value → List Value
  | [] => []
  | v :: vs => v.mapNumbers f :: mapItems f vs

/-- The members of an object with the numbers of their values replaced. -/
def mapMembers (f : Number → Number) : Members → Members
  | [] => []
  | (k, v) :: ms => (k, v.mapNumbers f) :: mapMembers f ms

end

section Kept

variable (f : Number → Number)

@[simp] theorem Value.isObject_mapNumbers (v : Value) :
    (v.mapNumbers f).isObject = v.isObject := by
  cases v <;> rfl

theorem keys_mapMembers (ms : Members) : (mapMembers f ms).map Prod.fst = ms.map Prod.fst := by
  induction ms with
  | nil => rfl
  | cons m ms ih => rw [mapMembers, List.map_cons, List.map_cons, ih]

mutual

/-- Other numbers are nested no deeper. -/
theorem Value.depth_mapNumbers : ∀ v : Value, (v.mapNumbers f).depth = v.depth
  | .null => rfl
  | .bool _ => rfl
  | .number _ => rfl
  | .string _ => rfl
  | .array vs => by rw [Value.mapNumbers, Value.depth, Value.depth, itemsDepth_mapItems vs]
  | .object ms => by rw [Value.mapNumbers, Value.depth, Value.depth, membersDepth_mapMembers ms]

theorem itemsDepth_mapItems : ∀ vs : List Value, itemsDepth (mapItems f vs) = itemsDepth vs
  | [] => rfl
  | v :: vs => by
    rw [mapItems, itemsDepth, itemsDepth, v.depth_mapNumbers, itemsDepth_mapItems vs]

theorem membersDepth_mapMembers : ∀ ms : Members, membersDepth (mapMembers f ms) = membersDepth ms
  | [] => rfl
  | (_, v) :: ms => by
    rw [mapMembers, membersDepth, membersDepth, v.depth_mapNumbers, membersDepth_mapMembers ms]

end

mutual

/-- Keys that differ still do when the numbers are changed. -/
theorem Value.distinctKeys_mapNumbers :
    ∀ v : Value, v.All Value.HasDistinctKeys → (v.mapNumbers f).All Value.HasDistinctKeys
  | .null, h => h
  | .bool _, h => h
  | .number _, h => h
  | .string _, h => h
  | .array vs, h => ⟨trivial, distinctKeys_mapItems vs h.2⟩
  | .object ms, h => by
    refine ⟨?_, distinctKeys_mapMembers ms h.2⟩
    rw [Value.HasDistinctKeys, keys_mapMembers]
    exact h.1

theorem distinctKeys_mapItems : ∀ vs : List Value, AllItems Value.HasDistinctKeys vs →
    AllItems Value.HasDistinctKeys (mapItems f vs)
  | [], _ => trivial
  | v :: vs, h => ⟨v.distinctKeys_mapNumbers h.1, distinctKeys_mapItems vs h.2⟩

theorem distinctKeys_mapMembers : ∀ ms : Members, AllMembers Value.HasDistinctKeys ms →
    AllMembers Value.HasDistinctKeys (mapMembers f ms)
  | [], _ => trivial
  | (_, v) :: ms, h => ⟨v.distinctKeys_mapNumbers h.1, distinctKeys_mapMembers ms h.2⟩

end

end Kept

section MapNumbers

variable {f : Number → Number} {p : Value → Prop}

mutual

/-- Nothing changes if every number is replaced by itself. -/
theorem Value.mapNumbers_eq_self (hf : ∀ n, p (.number n) → f n = n) :
    ∀ v : Value, v.All p → v.mapNumbers f = v
  | .null, _ => rfl
  | .bool _, _ => rfl
  | .number n, h => congrArg Value.number (hf n h)
  | .string _, _ => rfl
  | .array vs, h => by rw [Value.mapNumbers, mapItems_eq_self hf vs h.2]
  | .object ms, h => by rw [Value.mapNumbers, mapMembers_eq_self hf ms h.2]

theorem mapItems_eq_self (hf : ∀ n, p (.number n) → f n = n) :
    ∀ vs : List Value, AllItems p vs → mapItems f vs = vs
  | [], _ => rfl
  | v :: vs, h => by
    rw [mapItems, v.mapNumbers_eq_self hf h.1, mapItems_eq_self hf vs h.2]

theorem mapMembers_eq_self (hf : ∀ n, p (.number n) → f n = n) :
    ∀ ms : Members, AllMembers p ms → mapMembers f ms = ms
  | [], _ => rfl
  | (_, v) :: ms, h => by
    rw [mapMembers, v.mapNumbers_eq_self hf h.1, mapMembers_eq_self hf ms h.2]

end

mutual

/-- **What is written is what is spelled**, each number as it is read again. -/
theorem spells_mapNumbers (hf : ∀ n, p (.number n) → Spells n.chars (.number (f n))) :
    ∀ v : Value, v.All p → Spells v.chars (v.mapNumbers f)
  | .null, _ => .null
  | .bool true, _ => .true
  | .bool false, _ => .false
  | .number n, h => hf n h
  | .string s, _ => .string (spellsString_stringChars s)
  | .array [], _ => .emptyArray .nil
  -- the writer puts a comma before every item but the first, the grammar behind all but the last
  | .array (v :: vs), h => by
    simp only [Value.All, AllItems] at h
    obtain ⟨ts, hts, hitems⟩ :=
      spells_moreItems hf vs h.2.2 (.of_spells (spells_mapNumbers hf v h.2.1))
    rw [Value.chars, List.cons_append, hts]
    exact .array hitems
  | .object [], _ => .emptyObject .nil
  | .object ((k, v) :: ms), h => by
    simp only [Value.All, AllMembers] at h
    obtain ⟨ts, hts, hmembers⟩ :=
      spells_moreMembers hf ms h.2.2 (.of_spells (k := k) (spells_mapNumbers hf v h.2.1))
    rw [List.append_assoc] at hts
    rw [Value.chars, List.append_assoc, List.cons_append, hts]
    exact .object hmembers

/-- What is written behind an item, up to the closing bracket. -/
theorem spells_moreItems (hf : ∀ n, p (.number n) → Spells n.chars (.number (f n))) :
    ∀ vs : List Value, AllItems p vs → ∀ {t : List Char} {u : Value}, SpellsPadded t u →
      ∃ ts, t ++ moreItems vs = ts ++ [']'] ∧ SpellsItems ts (u :: mapItems f vs)
  | [], _, t, _, hu => ⟨t, rfl, .last hu⟩
  | v :: vs, h, t, _, hu => by
    obtain ⟨ts, hts, hitems⟩ :=
      spells_moreItems hf vs h.2 (.of_spells (spells_mapNumbers hf v h.1))
    refine ⟨t ++ ',' :: ts, ?_, .more hu hitems⟩
    rw [moreItems, List.cons_append, hts, List.append_assoc, List.cons_append]

/-- What is written behind a member, up to the closing brace. -/
theorem spells_moreMembers (hf : ∀ n, p (.number n) → Spells n.chars (.number (f n))) :
    ∀ ms : Members, AllMembers p ms → ∀ {t : List Char} {m : String × Value}, SpellsMember t m →
      ∃ ts, t ++ moreMembers ms = ts ++ ['\x7d'] ∧ SpellsMembers ts (m :: mapMembers f ms)
  | [], _, t, _, hm => ⟨t, rfl, .last hm⟩
  | (k, v) :: ms, h, t, _, hm => by
    obtain ⟨ts, hts, hmembers⟩ :=
      spells_moreMembers hf ms h.2 (.of_spells (k := k) (spells_mapNumbers hf v h.1))
    refine ⟨t ++ ',' :: ts, ?_, .more hm hmembers⟩
    rw [List.append_assoc, List.cons_append] at hts
    rw [moreMembers, List.append_assoc, List.cons_append, List.cons_append, List.append_assoc, hts,
      List.cons_append]

end

end MapNumbers

/-- A value with whole numbers only is spelled as it is. -/
theorem spells_chars (v : Value) (h : v.All Value.IsWhole) : Spells v.chars v := by
  have hspells := spells_mapNumbers (f := id) (p := Value.IsWhole) (fun n hn => by
    cases n with
    | whole n => exact spells_whole n
    | real x => exact absurd hn (by simp [Value.IsWhole])) v h
  rwa [v.mapNumbers_eq_self (f := id) (fun _ _ => rfl) h] at hspells

/-! ### Members put together -/

/-- A new key goes behind the others. -/
theorem put_of_not_mem {k : String} {v : Value} {ms : Members} (h : k ∉ ms.map Prod.fst) :
    put k v ms = ms ++ [(k, v)] := by
  induction ms with
  | nil => rfl
  | cons m ms ih =>
    rw [List.map_cons, List.mem_cons, not_or] at h
    rw [put, if_neg (fun heq => h.1 heq.symm), ih h.2]
    rfl

/-- Members with distinct keys are all put in, in their order. -/
theorem putAll_of_nodup {acc ms : Members} (h : ((acc ++ ms).map Prod.fst).Nodup) :
    putAll acc ms = acc ++ ms := by
  induction ms generalizing acc with
  | nil => simp [putAll]
  | cons m ms ih =>
    have hsplit : acc ++ m :: ms = acc ++ [m] ++ ms := by simp
    -- the key is none of those before it, so its member goes behind them
    have hm : m.1 ∉ acc.map Prod.fst := by
      rw [List.map_append, List.nodup_append] at h
      intro hmem
      exact h.2.2 m.1 hmem m.1 (by simp) rfl
    change putAll (put m.1 m.2 acc) ms = acc ++ m :: ms
    rw [put_of_not_mem hm, hsplit]
    rw [hsplit] at h
    exact ih h

mutual

/-- **Nothing is put together where keys are distinct.** -/
theorem Value.merged_eq_self : ∀ v : Value, v.All Value.HasDistinctKeys → v.merged = v
  | .null, _ => rfl
  | .bool _, _ => rfl
  | .number _, _ => rfl
  | .string _, _ => rfl
  | .array vs, h => by
    rw [Value.merged, mergedItems_eq_self vs h.2]
  | .object ms, h => by
    have hput : putAll [] ms = [] ++ ms := putAll_of_nodup h.1
    rw [Value.merged, mergedMembers_eq_self ms h.2, hput, List.nil_append]

theorem mergedItems_eq_self : ∀ vs : List Value, AllItems Value.HasDistinctKeys vs →
    mergedItems vs = vs
  | [], _ => rfl
  | v :: vs, h => by rw [mergedItems, v.merged_eq_self h.1, mergedItems_eq_self vs h.2]

theorem mergedMembers_eq_self : ∀ ms : Members, AllMembers Value.HasDistinctKeys ms →
    mergedMembers ms = ms
  | [], _ => rfl
  | (_, v) :: ms, h => by rw [mergedMembers, v.merged_eq_self h.1, mergedMembers_eq_self ms h.2]

end

/-! ### The round trip -/

/-- **An object that its compact text keeps**: its numbers are whole, its keys distinct in every
object, and at most 127 containers are nested. -/
structure Value.IsKept (v : Value) : Prop where
  object : v.isObject = true
  whole : v.All Value.IsWhole
  distinct : v.All Value.HasDistinctKeys
  shallow : v.depth ≤ 127

/-- The compact text of such an object is read as the object. -/
theorem Value.IsKept.read {v : Value} (h : v.IsKept) : Payload.read v.compact = .ok v := by
  have htext : IsText v.compact v := by
    refine ⟨?_, h.shallow⟩
    rw [Value.compact, String.toList_ofList]
    exact .of_spells (spells_chars v h.whole)
  have hread := read_eq_ok_iff_isText.mpr ⟨v, htext, (v.merged_eq_self h.distinct).symm⟩
  exact Payload.read_of_isObject hread h.object

end TokenForge.Json

namespace TokenForge.Payload

open Json

/-- **Writing and reading undo each other.** An object that its compact text keeps is read from that
text as it was, its members in their order, and no other such object has the same text. -/
theorem read_compact {v : Value} (hv : v.IsKept) :
    read v.compact = .ok v ∧ ∀ w : Value, w.IsKept → w.compact = v.compact → w = v := by
  refine ⟨hv.read, fun w hw htext => ?_⟩
  -- both are what their common text is read as
  have hread := hw.read
  rw [htext, hv.read] at hread
  exact (Except.ok.inj hread).symm

/-- An object with both extreme integers, escaped characters and an empty key. -/
def extremes : Value :=
  .object [("b\n", .array [.ofWhole { val := -0x8000000000000000 },
      .ofWhole { val := 0xFFFFFFFFFFFFFFFF }]),
    ("a", .object [("\"", .string "\\é\x01"), ("", .null)])]

/-- Integers of 64 bits at both ends, controls, quotes and an empty key come back. -/
theorem read_compact_extremes :
    extremes.IsKept ∧ read extremes.compact = .ok extremes ∧
      ∀ w : Value, w.IsKept → w.compact = extremes.compact → w = extremes := by
  have hkept : extremes.IsKept := by
    refine ⟨rfl, ?_, ?_, by decide⟩
    · simp [extremes, Value.All, AllMembers, AllItems, Value.IsWhole, Value.ofWhole]
    · simp [extremes, Value.All, AllMembers, AllItems, Value.HasDistinctKeys, Value.ofWhole]
  exact ⟨hkept, read_compact hkept⟩

end TokenForge.Payload
