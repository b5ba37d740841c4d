import Mathlib.Data.Fintype.Basic
import Mathlib.Tactic.Common
import TokenForge.Json.Reader
import TokenForge.Proofs.Json.Grammar

/-!
# Strings read and strings spelled

* `Scan.feed_spelled` — what spells some characters is read as those characters;
* `Scan.Reads` — what has been spelled when the inside of a string has been read up to some state;
  `Scan.Reads.step` — one character more.
-/

namespace TokenForge.Json

/-! ### Digits of base 16 and short escapes -/

instance (c : Char) (d : Fin 16) : Decidable (HexDigit c d) :=
  inferInstanceAs (Decidable (_ ∨ _))

/-- A digit of base 16 has its value and takes one byte. -/
theorem HexDigit.spec {c : Char} {d : Fin 16} (h : HexDigit c d) :
    hexValue? c = some d.val ∧ c.utf8Size = 1 := by
  have hall : ∀ d : Fin 16, (hexValue? (Nat.digitChar d) = some d.val ∧
      (Nat.digitChar d).utf8Size = 1) ∧ hexValue? (Nat.digitChar d).toUpper = some d.val ∧
      (Nat.digitChar d).toUpper.utf8Size = 1 := by decide
  rcases h with rfl | rfl
  · exact (hall d).1
  · exact (hall d).2

/-- A character that has a value in base 16 is a digit. -/
theorem hexDigit_of_hexValue? {c : Char} {n : Nat} (h : hexValue? c = some n) :
    ∃ d : Fin 16, d.val = n ∧ HexDigit c d := by
  -- no character from `g` on has a value, so a finite check is enough
  have hall : ∀ k < 103, ∀ n ∈ hexValue? (Char.ofNat k),
      ∃ d : Fin 16, d.val = n ∧ HexDigit (Char.ofNat k) d := by decide
  -- each range of digits ends below that bound
  have hlt : c.toNat < 103 := by
    have h9 : ∀ d : Char, c ≤ d → c.toNat ≤ d.toNat := fun d hd => hd
    unfold hexValue? at h
    split at h
    · next hc => exact lt_of_le_of_lt (h9 _ hc.2) (by decide)
    · split at h
      · next hc => exact lt_of_le_of_lt (h9 _ hc.2) (by decide)
      · split at h
        · next hc => exact lt_of_le_of_lt (h9 _ hc.2) (by decide)
        · exact absurd h (by simp)
  have hc := hall c.toNat hlt n
  rw [Char.ofNat_toNat] at hc
  exact hc h

/-- A letter behind a backslash has the meaning that the table gives it. -/
theorem shortEscape?_eq_some_iff {e c : Char} :
    shortEscape? e = some c ↔ (e, c) ∈ shortEscapes := by
  constructor
  · intro h
    unfold shortEscape? at h
    split_ifs at h with h1 h2 h3 h4 h5 h6 h7 h8 <;>
      (obtain rfl := Option.some.inj h; subst e; decide)
  · intro h
    simp only [shortEscapes, List.mem_cons, Prod.mk.injEq, List.not_mem_nil, or_false] at h
    rcases h with ⟨rfl, rfl⟩ | ⟨rfl, rfl⟩ | ⟨rfl, rfl⟩ | ⟨rfl, rfl⟩ | ⟨rfl, rfl⟩ | ⟨rfl, rfl⟩ |
      ⟨rfl, rfl⟩ | ⟨rfl, rfl⟩ <;> rfl

/-! ### What is spelled is read -/

namespace Scan

/-- The state after some characters that are no closing quote, and the characters they spell. -/
def feed (scan : Scan) : List Char → Option (Scan × List Char)
  | [] => some (scan, [])
  | c :: cs =>
    match scan.step c with
    | .more next read => (next.feed cs).map fun r => (r.1, read ++ r.2)
    | .close | .fault _ _ => none

variable {scan next last : Scan} {read more : List Char} {lead : Option Nat} {n : Nat}

theorem feed_cons {c : Char} {cs : List Char} (h : scan.step c = .more next read)
    (hcs : next.feed cs = some (last, more)) :
    scan.feed (c :: cs) = some (last, read ++ more) := by
  rw [feed, h]
  simp only [hcs]
  rfl

/-- A character that adds nothing to what was read. -/
theorem feed_cons_nil {c : Char} {cs : List Char} (h : scan.step c = .more next [])
    (hcs : next.feed cs = some (last, more)) : scan.feed (c :: cs) = some (last, more) :=
  feed_cons h hcs

/-- What is read of a stretch comes of its first character and of the others. -/
theorem feed_cons_eq_some {c : Char} {cs : List Char}
    (h : scan.feed (c :: cs) = some (last, read)) :
    ∃ next first rest, scan.step c = .more next first ∧ next.feed cs = some (last, rest) ∧
      first ++ rest = read := by
  unfold feed at h
  cases hstep : scan.step c with
  | more k r =>
    rw [hstep] at h
    obtain ⟨⟨mid, rest⟩, hmid, heq⟩ := Option.map_eq_some_iff.mp h
    obtain ⟨rfl, rfl⟩ := Prod.mk.inj heq
    exact ⟨k, r, rest, rfl, hmid, rfl⟩
  | close =>
    rw [hstep] at h
    exact absurd h (by simp)
  | fault cause bytes =>
    rw [hstep] at h
    exact absurd h (by simp)

/-- Two stretches spell what the first and the second spell. -/
theorem feed_append {cs ds : List Char} (h : scan.feed cs = some (next, read))
    (hds : next.feed ds = some (last, more)) :
    scan.feed (cs ++ ds) = some (last, read ++ more) := by
  induction cs generalizing scan read with
  | nil =>
    obtain ⟨rfl, rfl⟩ := Prod.mk.inj (Option.some.inj h)
    exact hds
  | cons c cs ih =>
    obtain ⟨k, r, rest, hstep, hrest, rfl⟩ := feed_cons_eq_some h
    rw [List.cons_append, feed_cons hstep (ih hrest), List.append_assoc]

/-- A digit of a unit that is not its last. -/
theorem unit_step_more {c : Char} {d : Fin 16} (hc : HexDigit c d) {bytes : Nat}
    (hbytes : bytes + 1 < 4) :
    (unit lead bytes (some n)).step c = .more (unit lead (bytes + 1) (some (n * 16 + d))) [] := by
  obtain ⟨hvalue, hsize⟩ := hc.spec
  simp [step, unitStep, hvalue, hsize, hbytes]

/-- The fourth digit of a unit, which decides what the unit is. -/
theorem unit_step_last {c : Char} {d : Fin 16} (hc : HexDigit c d) :
    (unit lead 3 (some n)).step c = finishUnit lead (n * 16 + d) := by
  obtain ⟨hvalue, hsize⟩ := hc.spec
  simp [step, unitStep, hvalue, hsize]

/-- Up to three digits of a unit are kept as their value. -/
theorem feed_hex {hs : List Char} (h : Hex hs n) (hlen : hs.length < 4) :
    (unit lead 0 (some 0)).feed hs = some (unit lead hs.length (some n), []) := by
  induction h with
  | nil => rfl
  | @snoc hs n c d _ hc ih =>
    rw [List.length_append, List.length_singleton] at hlen ⊢
    exact feed_append (ih (by omega)) (feed_cons_nil (unit_step_more hc hlen) rfl)

/-- **The four digits of a unit.** -/
theorem feed_codeUnit {u : List Char} (h : CodeUnit u n)
    (hfinish : finishUnit lead n = .more next read) :
    (unit lead 0 (some 0)).feed u = some (next, read) := by
  obtain ⟨hlen, hhex⟩ := h
  cases hhex with
  | nil => exact absurd hlen (by simp)
  | @snoc hs n c d hhs hc =>
    rw [List.length_append, List.length_singleton] at hlen
    -- three digits are kept, and the fourth one finishes the unit
    have hfirst : (unit lead 0 (some 0)).feed hs = some (unit lead 3 (some n), []) := by
      rw [feed_hex hhs (by omega), show hs.length = 3 by omega]
    have hlast : (unit lead 3 (some n)).feed [c] = some (next, read ++ []) :=
      feed_cons ((unit_step_last hc).trans hfinish) rfl
    rw [List.append_nil] at hlast
    exact feed_append hfirst hlast

/-- **What spells some characters is read as those characters.** -/
theorem feed_spelled {t s : List Char} (h : SpellsChars t s) : plain.feed t = some (plain, s) := by
  -- the induction is on the characters spelled: each begins and ends in the plain state
  induction h with
  | nil => rfl
  | @plain c t s hlow hquote hslash _ ih =>
    have hstep : plain.step c = .more plain [c] := by
      simp [step, hquote, hslash, Nat.not_lt.mpr hlow]
    exact feed_cons hstep ih
  | @short e c t s hmem _ ih =>
    -- `u` is no short escape, so it is not taken for the beginning of a unit
    have hu : e ≠ 'u' := by
      rintro rfl
      exact absurd hmem (by simp [shortEscapes])
    have hstep : escape.step e = .more plain [c] := by
      simp [step, hu, shortEscape?_eq_some_iff.mpr hmem]
    exact feed_cons_nil rfl (feed_cons hstep ih)
  | @unit u t s n hu hn _ ih =>
    have hfinish : finishUnit none n = .more plain [Char.ofNat n] := by
      have htrail : isTrailing n = false := by simp [isTrailing]; omega
      have hlead : isLeading n = false := by simp [isLeading]; omega
      simp [finishUnit, htrail, hlead]
    exact feed_cons_nil rfl
      (feed_cons_nil rfl (feed_append (feed_codeUnit hu hfinish) ih))
  | @pair u v t s lead trail hu hlow hhigh hv hlow' hhigh' _ ih =>
    -- the first unit is kept until the second one makes a character with it
    have hfirst : finishUnit none lead = .more (pairSlash lead) [] := by
      have htrail : isTrailing lead = false := by simp [isTrailing]; omega
      have hlead : isLeading lead = true := by simp [isLeading]; omega
      simp [finishUnit, htrail, hlead]
    have hsecond : finishUnit (some lead) trail = .more plain [joinSurrogates lead trail] := by
      have htrail : isTrailing trail = true := by simp [isTrailing]; omega
      simp [finishUnit, htrail]
    have hrest := feed_append (feed_codeUnit hv hsecond) ih
    exact feed_cons_nil rfl (feed_cons_nil rfl
      (feed_append (feed_codeUnit hu hfirst)
        (feed_cons_nil rfl (feed_cons_nil rfl hrest))))

end Scan

/-! ### What is read was spelled -/

/-- What two stretches spell, they spell in a row. -/
theorem SpellsChars.append {t s t' s' : List Char} (h : SpellsChars t s)
    (h' : SpellsChars t' s') : SpellsChars (t ++ t') (s ++ s') := by
  induction h with
  | nil => exact h'
  | plain hlow hquote hslash _ ih => exact .plain hlow hquote hslash ih
  | short hmem _ ih => exact .short hmem ih
  | unit hu hn _ ih =>
    rw [List.cons_append, List.cons_append, List.append_assoc]
    exact .unit hu hn ih
  | pair hu hlow hhigh hv hlow' hhigh' _ ih =>
    rw [List.cons_append, List.cons_append, List.append_assoc, List.cons_append, List.cons_append,
      List.append_assoc]
    exact .pair hu hlow hhigh hv hlow' hhigh' ih

/-- **What has been spelled when the inside of a string is in some state**: the text so far and the
characters that it spells. Once a unit has a character that is no digit, nothing is known. -/
inductive Scan.Reads : List Char → List Char → Scan → Prop
  | plain {t s : List Char} : SpellsChars t s → Reads t s .plain
  | escape {t s : List Char} : SpellsChars t s → Reads (t ++ ['\\']) s .escape
  | unit {t s hs : List Char} {n : Nat} : SpellsChars t s → Hex hs n → hs.length < 4 →
      Reads (t ++ '\\' :: 'u' :: hs) s (.unit none hs.length (some n))
  | pairSlash {t s u : List Char} {lead : Nat} : SpellsChars t s → CodeUnit u lead →
      isLeading lead → Reads (t ++ '\\' :: 'u' :: u) s (.pairSlash lead)
  | pairMark {t s u : List Char} {lead : Nat} : SpellsChars t s → CodeUnit u lead →
      isLeading lead → Reads (t ++ '\\' :: 'u' :: (u ++ ['\\'])) s (.pairMark lead)
  | pairUnit {t s u hs : List Char} {lead n : Nat} : SpellsChars t s → CodeUnit u lead →
      isLeading lead → Hex hs n → hs.length < 4 →
      Reads (t ++ '\\' :: 'u' :: (u ++ '\\' :: 'u' :: hs)) s (.unit (some lead) hs.length (some n))
  | broken {t s : List Char} {lead : Option Nat} {bytes : Nat} : Reads t s (.unit lead bytes none)

namespace Scan

variable {scan next : Scan} {t s read : List Char} {c : Char} {lead : Option Nat} {n bytes : Nat}

/-- A unit with a character that is no digit stays such a unit. -/
theorem broken_step (h : (unit lead bytes none).step c = .more next read) :
    ∃ k, next = .unit lead k none ∧ read = [] := by
  simp only [step, unitStep, bind, Option.bind] at h
  split at h
  · obtain ⟨rfl, rfl⟩ := Step.more.inj h
    exact ⟨_, rfl, rfl⟩
  · exact absurd h (by simp)

/-- One character of a unit: no digit, a digit more, or the last digit. -/
theorem unit_step_cases (hbytes : bytes < 4)
    (h : (unit lead bytes (some n)).step c = .more next read) :
    (∃ k, next = .unit lead k none ∧ read = []) ∨
      ∃ d : Fin 16, HexDigit c d ∧
        ((bytes + 1 < 4 ∧ next = .unit lead (bytes + 1) (some (n * 16 + d)) ∧ read = []) ∨
          (bytes = 3 ∧ finishUnit lead (n * 16 + d) = .more next read)) := by
  cases hc : hexValue? c with
  | none =>
    simp only [step, unitStep, bind, Option.bind, hc] at h
    split at h
    · obtain ⟨rfl, rfl⟩ := Step.more.inj h
      exact .inl ⟨_, rfl, rfl⟩
    · exact absurd h (by simp)
  | some k =>
    obtain ⟨d, rfl, hd⟩ := hexDigit_of_hexValue? hc
    refine .inr ⟨d, hd, ?_⟩
    by_cases hmore : bytes + 1 < 4
    · rw [unit_step_more hd hmore] at h
      obtain ⟨rfl, rfl⟩ := Step.more.inj h
      exact .inl ⟨hmore, rfl, rfl⟩
    · -- with fewer than four bytes before it, only the fourth digit is the last
      obtain rfl : bytes = 3 := by omega
      rw [unit_step_last hd] at h
      exact .inr ⟨rfl, h⟩

/-- Three digits and one more are a unit. -/
theorem CodeUnit.snoc {hs : List Char} {d : Fin 16} (hhex : Hex hs n) (hlen : hs.length = 3)
    (hc : HexDigit c d) : CodeUnit (hs ++ [c]) (n * 16 + d) :=
  ⟨by simp [hlen], hhex.snoc hc⟩

/-- **One character more of the inside of a string.** -/
theorem Reads.step (hr : Reads t s scan) (h : scan.step c = .more next read) :
    Reads (t ++ [c]) (s ++ read) next := by
  cases hr with
  -- between characters: a backslash, or a character that spells itself
  | plain hs =>
    simp only [Scan.step] at h
    split_ifs at h with hquote hslash hlow
    · obtain ⟨rfl, rfl⟩ := Step.more.inj h
      subst hslash
      rw [List.append_nil]
      exact .escape hs
    · obtain ⟨rfl, rfl⟩ := Step.more.inj h
      exact .plain (hs.append (.plain (Nat.not_lt.mp hlow) hquote hslash .nil))
  -- behind a backslash: the letter of a unit, or a short escape
  | @escape t s hs =>
    simp only [Scan.step] at h
    split at h
    · next hu =>
      obtain ⟨rfl, rfl⟩ := Step.more.inj h
      subst hu
      rw [List.append_nil, List.append_assoc]
      exact .unit hs .nil (by simp)
    · cases he : shortEscape? c with
      | none => simp [he] at h
      | some d =>
        rw [he] at h
        obtain ⟨rfl, rfl⟩ := Step.more.inj h
        rw [List.append_assoc]
        exact .plain (hs.append (.short (shortEscape?_eq_some_iff.mp he) .nil))
  | @unit t s hs n ht hhex hlen =>
    rcases unit_step_cases hlen h with ⟨k, rfl, rfl⟩ | ⟨d, hd, ⟨hmore, rfl, rfl⟩ | ⟨hthree, hend⟩⟩
    · exact .broken
    · have hnext := Reads.unit ht (hhex.snoc hd) (by simpa using hmore)
      simpa using hnext
    · -- the unit is whole: it leads a pair, or it is a character by itself
      have hunit := CodeUnit.snoc hhex hthree hd
      rw [List.append_assoc, List.cons_append, List.cons_append]
      simp only [finishUnit] at hend
      split_ifs at hend with htrail hlead
      · obtain ⟨rfl, rfl⟩ := Step.more.inj hend
        rw [List.append_nil]
        exact .pairSlash ht hunit hlead
      · obtain ⟨rfl, rfl⟩ := Step.more.inj hend
        have hrange : n * 16 + d < 0xD800 ∨ 0xDFFF < n * 16 + d := by
          simp only [isTrailing, isLeading, Bool.and_eq_true, decide_eq_true_eq] at htrail hlead
          omega
        have hchar := SpellsChars.unit hunit hrange .nil
        rw [List.append_nil] at hchar
        exact .plain (ht.append hchar)
  -- behind the first unit of a pair only an escape of the second one may stand
  | @pairSlash t s u lead ht hu hlead =>
    simp only [Scan.step] at h
    split at h
    · next hslash =>
      obtain ⟨rfl, rfl⟩ := Step.more.inj h
      subst hslash
      rw [List.append_nil, List.append_assoc]
      exact .pairMark ht hu hlead
    · exact absurd h (by simp)
  | @pairMark t s u lead ht hu hlead =>
    simp only [Scan.step] at h
    split at h
    · next hmark =>
      obtain ⟨rfl, rfl⟩ := Step.more.inj h
      subst hmark
      have hnext := Reads.pairUnit ht hu hlead .nil (by simp)
      simpa using hnext
    · exact absurd h (by simp)
  | @pairUnit t s u hs lead n ht hu hlead hhex hlen =>
    rcases unit_step_cases hlen h with ⟨k, rfl, rfl⟩ | ⟨d, hd, ⟨hmore, rfl, rfl⟩ | ⟨hthree, hend⟩⟩
    · exact .broken
    · have hnext := Reads.pairUnit ht hu hlead (hhex.snoc hd) (by simpa using hmore)
      simpa using hnext
    · -- the second unit is whole, and must trail the first
      have hunit := CodeUnit.snoc hhex hthree hd
      simp only [finishUnit] at hend
      split_ifs at hend with htrail
      obtain ⟨rfl, rfl⟩ := Step.more.inj hend
      simp only [isTrailing, isLeading, Bool.and_eq_true, decide_eq_true_eq] at htrail hlead
      have hchar := SpellsChars.pair hu hlead.1 hlead.2 hunit htrail.1 htrail.2 .nil
      rw [List.append_nil] at hchar
      have htext := ht.append hchar
      simp only [List.append_assoc, List.cons_append]
      exact .plain htext
  -- nothing is known of a broken unit, and nothing has to be
  | broken =>
    obtain ⟨k, rfl, rfl⟩ := broken_step h
    exact .broken

/-- The end of a unit is not the end of the string. -/
theorem finishUnit_ne_close : finishUnit lead n ≠ .close := by
  cases lead with
  | none =>
    simp only [finishUnit]
    split_ifs <;> simp
  | some l =>
    simp only [finishUnit]
    split <;> simp

/-- Only a quote closes a string, and only between characters. -/
theorem step_eq_close (h : scan.step c = .close) : scan = .plain ∧ c = '"' := by
  cases scan with
  | plain =>
    simp only [step] at h
    split_ifs at h with hquote
    exact ⟨rfl, hquote⟩
  | escape =>
    simp only [step] at h
    split at h
    · exact absurd h (by simp)
    · split at h <;> exact absurd h (by simp)
  | unit lead bytes value =>
    simp only [step, unitStep] at h
    split at h
    · exact absurd h (by simp)
    · split at h
      · exact absurd h finishUnit_ne_close
      · exact absurd h (by simp)
  | pairSlash lead =>
    simp only [step] at h
    split at h <;> exact absurd h (by simp)
  | pairMark lead =>
    simp only [step] at h
    split at h <;> exact absurd h (by simp)

end Scan

end TokenForge.Json
