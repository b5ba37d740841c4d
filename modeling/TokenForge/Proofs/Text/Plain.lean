import Mathlib.Tactic.SplitIfs
import TokenForge.Json.Writer
import TokenForge.Proofs.Base64.Symbols
import TokenForge.Proofs.Number.Digits

/-!
# Texts without control characters

What is written of numbers, of bytes and of JSON values has no character below the space, so it never
breaks a line: the digits of a number and the symbols of base64 are no such characters, and in the
strings of a value all of them are escaped.

* `Text.IsPlain` — a text without such characters;
* `AreFigures.isPlain` — numbers;
* `Json.isPlain_chars` — values.
-/

namespace TokenForge

/-- **A text without control characters** below the space. -/
def Text.IsPlain (cs : List Char) : Prop := ∀ c ∈ cs, 0x20 ≤ c.toNat

/-- The figures of a number are no control characters. -/
theorem AreFigures.isPlain {cs : List Char} (h : AreFigures cs) : Text.IsPlain cs :=
  fun c hc => Nat.le_trans (by decide) (h c hc).bounds.1

namespace Text

variable {c : Char} {cs ds : List Char}

@[simp] theorem isPlain_nil : IsPlain [] := fun _ h => absurd h List.not_mem_nil

@[simp] theorem isPlain_cons : IsPlain (c :: cs) ↔ 0x20 ≤ c.toNat ∧ IsPlain cs :=
  List.forall_mem_cons

@[simp] theorem isPlain_append : IsPlain (cs ++ ds) ↔ IsPlain cs ∧ IsPlain ds :=
  List.forall_mem_append

/-- A text without control characters is on one line. -/
theorem IsPlain.lf_not_mem (h : IsPlain cs) : '\n' ∉ cs := fun hlf => absurd (h _ hlf) (by decide)

theorem isPlain_natDigits (n : Nat) : IsPlain (natDigits n) := (areFigures_natDigits n).isPlain

/-! ### Bytes -/

/-- The base64 of some bytes has no control characters. -/
theorem isPlain_encode (bs : Bytes) : IsPlain (Base64.encode Base64.urlSafe bs) := by
  have hsymbols : ∀ n < 64, 0x20 ≤ (Base64.urlSafe.symbol n).toNat := by decide
  intro c hc
  obtain ⟨n, hn, rfl⟩ := Base64.isSymbol_of_mem_encode hc
  exact hsymbols n hn

end Text

/-! ### Values -/

namespace Json

open Text

/-- The digits of an escape are no control characters. -/
theorem isPlain_hexDigit {n : Nat} (hn : n < 16) : 0x20 ≤ (hexDigit n).toNat := by
  have hdigits : ∀ n < 16, 0x20 ≤ (hexDigit n).toNat := by decide
  exact hdigits n hn

/-- A character that stands for itself is no control character, and no escape holds one. -/
theorem isPlain_escape (c : Char) : IsPlain (escape c) := by
  unfold escape
  by_cases hplain : 0x20 ≤ c.toNat
  · split_ifs <;> simp [hplain]
  · -- a control character is escaped by a letter or by its number
    have hhigh := isPlain_hexDigit (n := c.toNat / 16) (by omega)
    have hlow := isPlain_hexDigit (n := c.toNat % 16) (by omega)
    split_ifs <;> simp [hhigh, hlow]

theorem isPlain_stringChars (s : String) : IsPlain (stringChars s) := by
  have hchars : IsPlain (s.toList.flatMap escape) := by
    intro c hc
    obtain ⟨d, -, hd⟩ := List.mem_flatMap.mp hc
    exact isPlain_escape d c hd
  simp [stringChars, hchars]

theorem areFigures_number (n : Number) : AreFigures n.chars := by
  cases n with
  | whole n => exact areFigures_intDigits n.val
  | real x => exact realFormat.areFigures_write x

mutual

/-- **The compact text of a value has no control characters**, whatever its strings hold. -/
theorem isPlain_chars : ∀ v : Value, IsPlain v.chars
  | .null => by simp [Value.chars]
  | .bool true => by simp [Value.chars]
  | .bool false => by simp [Value.chars]
  | .number n => by
    rw [Value.chars]
    exact (areFigures_number n).isPlain
  | .string s => by
    rw [Value.chars]
    exact isPlain_stringChars s
  | .array [] => by simp [Value.chars]
  | .array (v :: vs) => by simp [Value.chars, isPlain_chars v, isPlain_moreItems vs]
  | .object [] => by simp [Value.chars]
  | .object ((k, v) :: ms) => by
    simp [Value.chars, isPlain_stringChars, isPlain_chars v, isPlain_moreMembers ms]

theorem isPlain_moreItems : ∀ vs : List Value, IsPlain (moreItems vs)
  | [] => by simp [moreItems]
  | v :: vs => by simp [moreItems, isPlain_chars v, isPlain_moreItems vs]

theorem isPlain_moreMembers : ∀ ms : Members, IsPlain (moreMembers ms)
  | [] => by simp [moreMembers]
  | (k, v) :: ms => by
    simp [moreMembers, isPlain_stringChars, isPlain_chars v, isPlain_moreMembers ms]

end

end Json

end TokenForge
