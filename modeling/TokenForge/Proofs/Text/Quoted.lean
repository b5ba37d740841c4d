import Mathlib.Tactic.SplitIfs
import TokenForge.Proofs.Text.Cut
import TokenForge.Proofs.Text.Scanned
import TokenForge.Proofs.Text.Utf8

/-!
# Quoted texts in dumps

What a dump writes between quotes has no control character, and no quote without a backslash in front
of it. It tells which text was quoted, as every character can be read back from its escape, whatever
comes behind.

* `IsControl`, `IsPrinted` — control characters, and texts without them;
* `unescape` — the character at the front of a quoted text;
* `isPrinted_escape`, `isBody_escape`, `unescape_escape` — the three properties of an escape;
* `flatMap_escape_injective` — a quoted text tells what was quoted.
-/

namespace TokenForge.Text

/-- **A control character**: one of the two ranges of controls. -/
def IsControl (c : Char) : Prop := c.toNat < 0x20 ∨ 0x7F ≤ c.toNat ∧ c.toNat ≤ 0x9F

instance : DecidablePred IsControl := fun _ => inferInstanceAs (Decidable (_ ∨ _))

/-- **A text without control characters.** -/
def IsPrinted (cs : List Char) : Prop := ∀ c ∈ cs, ¬IsControl c

instance : DecidablePred IsPrinted := fun cs => List.decidableBAll _ cs

variable {c d : Char} {cs ds : List Char}

@[simp] theorem isPrinted_append : IsPrinted (cs ++ ds) ↔ IsPrinted cs ∧ IsPrinted ds :=
  List.forall_mem_append

/-- A text put together of texts without control characters has none. -/
theorem isPrinted_flatMap {α : Type} {f : α → List Char} {xs : List α}
    (h : ∀ x, IsPrinted (f x)) : IsPrinted (xs.flatMap f) := by
  intro c hc
  obtain ⟨x, -, hx⟩ := List.mem_flatMap.mp hc
  exact h x c hx

/-- Both ranges of controls are among the code points that show nothing. -/
theorem inRanges_of_isControl (h : IsControl c) : inRanges unprintable c.toNat = true := by
  have hfirst : (0x0, 0x1F) ∈ unprintable := List.mem_cons_self
  have hsecond : (0x7F, 0xA0) ∈ unprintable := List.mem_cons_of_mem _ List.mem_cons_self
  rw [inRanges, List.any_eq_true]
  rcases h with hlow | ⟨hlow, hhigh⟩
  · exact ⟨_, hfirst, by simp; omega⟩
  · exact ⟨_, hsecond, by simp; omega⟩

/-- A character that is shown as it is is no control character. -/
theorem not_isControl_of_isShown (h : isShown c = true) : ¬IsControl c := by
  intro hcontrol
  rw [isShown, inRanges_of_isControl hcontrol] at h
  -- but for the second range, ASCII is shown by a rule of its own
  rcases hcontrol with hlow | ⟨hlow, hhigh⟩
  · simp at h
    omega
  · simp at h
    omega

/-! ### Numbers in base 16 -/

/-- The digits of a number in base 16 are digits of base 16. -/
theorem exists_digit_of_mem_hex {n : Nat} (h : c ∈ hex n) : ∃ d < 16, c = Nat.digitChar d := by
  induction n using Nat.strongRecOn with
  | ind n ih =>
    unfold hex at h ih
    by_cases hn : n < 16
    · rw [Nat.toDigits_of_lt_base hn, List.mem_singleton] at h
      exact ⟨n, hn, h⟩
    · rw [Nat.toDigits_of_base_le (by decide) (by omega), List.mem_append, List.mem_singleton] at h
      rcases h with h | h
      · exact ih (n / 16) (by omega) h
      · exact ⟨n % 16, by omega, h⟩

/-- The value of a digit of base 16, in lower case. -/
def digitValue (c : Char) : Nat := if c.isDigit then c.toNat - '0'.toNat else c.toNat - 'a'.toNat + 10

/-- The number that some digits of base 16 stand for. -/
def ofHex (cs : List Char) : Nat := cs.foldl (fun n c => n * 16 + digitValue c) 0

theorem digitValue_digitChar : ∀ d < 16, digitValue (Nat.digitChar d) = d := by decide

theorem ofHex_hex (n : Nat) : ofHex (hex n) = n := by
  induction n using Nat.strongRecOn with
  | ind n ih =>
    unfold hex ofHex at *
    by_cases hn : n < 16
    · rw [Nat.toDigits_of_lt_base hn, List.foldl_cons, digitValue_digitChar n hn]
      simp
    · rw [Nat.toDigits_of_base_le (by decide) (by omega), List.foldl_append, ih (n / 16) (by omega),
        List.foldl_cons, digitValue_digitChar _ (Nat.mod_lt n (by decide)), List.foldl_nil]
      omega

/-! ### Escapes -/

/-- What a character stands for behind a backslash. -/
def unescaped (c : Char) : Char :=
  if c = '0' then '\x00'
  else if c = 't' then '\t'
  else if c = 'r' then '\r'
  else if c = 'n' then '\n'
  else c

/-- **The character at the front of a quoted text**, and what comes behind it. -/
def unescape : List Char → Option (Char × List Char)
  | [] => none
  | '\\' :: 'u' :: '\x7b' :: cs =>
    some (Char.ofNat (ofHex (cs.takeWhile (· ≠ '\x7d'))), (cs.dropWhile (· ≠ '\x7d')).tail)
  | '\\' :: c :: cs => some (unescaped c, cs)
  | c :: cs => some (c, cs)

/-- **The three ways to escape a character**: after a backslash, as it is, and by its number. -/
theorem escape_cases (c : Char) :
    (∃ d, escape c = ['\\', d] ∧ ¬IsControl d ∧ d ≠ 'u' ∧ unescaped d = c) ∨
    (escape c = [c] ∧ ¬IsControl c ∧ c ≠ '"' ∧ c ≠ '\\') ∨
    escape c = ['\\', 'u', '\x7b'] ++ hex c.toNat ++ ['\x7d'] := by
  unfold escape
  split_ifs with hnul htab hcr hlf hslash hquote hshown
  · exact .inl ⟨'0', rfl, by decide, by decide, hnul.symm⟩
  · exact .inl ⟨'t', rfl, by decide, by decide, htab.symm⟩
  · exact .inl ⟨'r', rfl, by decide, by decide, hcr.symm⟩
  · exact .inl ⟨'n', rfl, by decide, by decide, hlf.symm⟩
  · exact .inl ⟨'\\', rfl, by decide, by decide, hslash.symm⟩
  · exact .inl ⟨'"', rfl, by decide, by decide, hquote.symm⟩
  · exact .inr (.inl ⟨rfl, not_isControl_of_isShown hshown, hquote, hslash⟩)
  · exact .inr (.inr rfl)

/-- **An escape has no control character.** -/
theorem isPrinted_escape (c : Char) : IsPrinted (escape c) := by
  have hdigits : ∀ d < 16, ¬IsControl (Nat.digitChar d) := by decide
  -- by the three ways to escape a character
  rcases escape_cases c with ⟨d, hd, hprinted, -⟩ | ⟨hself, hprinted, -⟩ | hnumber
  · rw [hd]
    exact List.forall_mem_cons.mpr ⟨by decide, List.forall_mem_singleton.mpr hprinted⟩
  · rw [hself]
    exact List.forall_mem_singleton.mpr hprinted
  · rw [hnumber, isPrinted_append, isPrinted_append]
    refine ⟨⟨by decide, fun c hc => ?_⟩, by decide⟩
    obtain ⟨d, hd, rfl⟩ := exists_digit_of_mem_hex hc
    exact hdigits d hd

/-- **An escape never closes the quotes.** -/
theorem isBody_escape (c : Char) : IsBody (escape c) := by
  have hdigits : ∀ d < 16, Nat.digitChar d ≠ '"' ∧ Nat.digitChar d ≠ '\\' := by decide
  rcases escape_cases c with ⟨d, hd, -⟩ | ⟨hself, -, hquote, hslash⟩ | hnumber
  · rw [hd]
    exact .escaped d .nil
  · rw [hself]
    exact .plain hquote hslash .nil
  · -- the digits of a number are neither quotes nor backslashes
    have hhex : IsBody (hex c.toNat) := isBody_of_plain fun c hc => by
      obtain ⟨d, hd, rfl⟩ := exists_digit_of_mem_hex hc
      exact hdigits d hd
    have hclose : IsBody ['\x7d'] := .plain (by decide) (by decide) .nil
    rw [hnumber]
    exact .escaped 'u' (.plain (by decide) (by decide) (hhex.append hclose))

/-- **A character is read back from its escape**, whatever comes behind. -/
theorem unescape_escape (c : Char) (rest : List Char) :
    unescape (escape c ++ rest) = some (c, rest) := by
  have hdigits : ∀ d < 16, Nat.digitChar d ≠ '\x7d' := by decide
  -- by the three ways to escape a character; only the last has to look for its end
  rcases escape_cases c with ⟨d, hd, -, hu, hc⟩ | ⟨hself, -, -, hslash⟩ | hnumber
  · rw [hd, ← hc]
    simp [unescape, hu]
  · rw [hself]
    simp [unescape, hslash]
  · -- the digits are all that comes before the closing brace
    have hhex : ∀ c' ∈ hex c.toNat, decide (c' ≠ '\x7d') = true := fun c' hc' => by
      obtain ⟨d, hd, rfl⟩ := exists_digit_of_mem_hex hc'
      exact decide_eq_true (hdigits d hd)
    have hstop : ∀ c' ∈ ('\x7d' :: rest).head?, decide (c' ≠ '\x7d') = false := by simp
    have htake := takeWhile_append_of_stop hhex hstop
    have hdrop := dropWhile_append_of_stop hhex hstop
    have htext : escape c ++ rest = '\\' :: 'u' :: '\x7b' :: (hex c.toNat ++ '\x7d' :: rest) := by
      simp [hnumber]
    rw [htext, unescape, htake, hdrop, ofHex_hex, Char.ofNat_toNat, List.tail_cons]

/-- **A quoted text tells what was quoted.** -/
theorem flatMap_escape_injective : Function.Injective fun cs : List Char => cs.flatMap escape := by
  intro cs ds h
  have hnil (c : Char) (cs : List Char) : [] ≠ escape c ++ cs.flatMap escape := fun hempty => by
    have hread := unescape_escape c (cs.flatMap escape)
    rw [← hempty] at hread
    cases hread
  -- by induction on the first text: the character in front is read back, and what is left is the
  -- escape of the rest
  induction cs generalizing ds with
  | nil =>
    cases ds with
    | nil => rfl
    | cons d ds => exact absurd h (hnil d ds)
  | cons c cs ih =>
    cases ds with
    | nil => exact absurd h.symm (hnil c cs)
    | cons d ds =>
      have hread : some (c, cs.flatMap escape) = some (d, ds.flatMap escape) := by
        rw [← unescape_escape c, ← unescape_escape d]
        exact congrArg unescape h
      obtain ⟨rfl, hrest⟩ := Prod.mk.inj (Option.some.inj hread)
      rw [ih hrest]

/-! ### Quoted bytes -/

/-- A stray byte is spelled out after a backslash. -/
theorem byteDigits_cases (b : UInt8) : ∃ i < 16, ∃ j < 16,
    byteDigits b = [(Nat.digitChar i).toUpper, (Nat.digitChar j).toUpper] := by
  have hb := b.toNat_lt
  exact ⟨b.toNat / 16, by omega, b.toNat % 16, by omega, rfl⟩

/-- A piece of a quoted text, be it a character or stray bytes, has no control character. -/
theorem isPrinted_escapePiece (p : Utf8.Piece) : IsPrinted (escapePiece p) := by
  have hdigits : ∀ d < 16, ¬IsControl (Nat.digitChar d).toUpper := by decide
  cases p with
  | char c => exact isPrinted_escape c
  | stray bs =>
    refine isPrinted_flatMap fun b => ?_
    obtain ⟨i, hi, j, hj, hb⟩ := byteDigits_cases b
    rw [hb, isPrinted_append]
    exact ⟨by decide, List.forall_mem_cons.mpr
      ⟨hdigits i hi, List.forall_mem_singleton.mpr (hdigits j hj)⟩⟩

/-- What stands for a piece does not close the quotes. -/
theorem isBody_escapePiece (p : Utf8.Piece) : IsBody (escapePiece p) := by
  have hdigits : ∀ d < 16, (Nat.digitChar d).toUpper ≠ '"' ∧ (Nat.digitChar d).toUpper ≠ '\\' := by
    decide
  cases p with
  | char c => exact isBody_escape c
  | stray bs =>
    refine isBody_flatMap fun b => ?_
    obtain ⟨i, hi, j, hj, hb⟩ := byteDigits_cases b
    rw [hb]
    exact .escaped 'x' (isBody_of_plain (List.forall_mem_cons.mpr
      ⟨hdigits i hi, List.forall_mem_singleton.mpr (hdigits j hj)⟩))

/-- The bytes of a text are quoted as the text is. -/
theorem flatMap_escapePiece_utf8 (s : String) :
    (Utf8.pieces (utf8 s)).flatMap escapePiece = s.toList.flatMap escape := by
  rw [utf8, Utf8.pieces_encode, List.flatMap_map]
  rfl

end TokenForge.Text
