import Mathlib.Data.List.Forall2
import TokenForge.Proofs.Json.RoundTrip
import TokenForge.Proofs.Text.Plain
import TokenForge.Proofs.Text.Scanned

/-!
# The strings in a compact text

The compact text of a value, cut at its quotes: what stands between them are the strings of the
value, keys among them, each character of them raw unless JSON forbids it; what stands outside has no
white space.

* `Value.texts` — the strings of a value in the order in which they are written;
* `KeepsRaw` — the inside of a string that escapes nothing but what it must;
* `IsLexed` — the parts of a text without white space, with the strings between its quotes;
* `lexes_chars` — the compact text of a value has such parts, for the strings of the value.
-/

namespace TokenForge.Json

open Text

mutual

/-- **The strings of a value**, keys among them, in the order in which they are written. -/
def Value.texts : Value → List String
  | .null => []
  | .bool _ => []
  | .number _ => []
  | .string s => [s]
  | .array vs => itemTexts vs
  | .object ms => memberTexts ms

def itemTexts : List Value → List String
  | [] => []
  | v :: vs => v.texts ++ itemTexts vs

def memberTexts : Members → List String
  | [] => []
  | (k, v) :: ms => k :: v.texts ++ memberTexts ms

end

/-! ### Raw characters -/

/-- A character that JSON forbids to stand for itself in a string. -/
def IsSpecial (c : Char) : Prop := c = '"' ∨ c = '\\' ∨ c.toNat < 0x20

/-- **The inside of a string and the characters that it spells, all raw that may be**: a special one
is spelled after a backslash, every other one stands for itself. -/
inductive KeepsRaw : List Char → List Char → Prop
  | nil : KeepsRaw [] []
  | raw {c : Char} {t s : List Char} : ¬IsSpecial c → KeepsRaw t s → KeepsRaw (c :: t) (c :: s)
  | escaped {c : Char} {e t s : List Char} :
      IsSpecial c → SpellsChars ('\\' :: e) [c] → KeepsRaw t s →
        KeepsRaw ('\\' :: e ++ t) (c :: s)

/-- A character is written as itself, or is special and written after a backslash. -/
theorem escape_cases (c : Char) :
    ¬IsSpecial c ∧ escape c = [c] ∨ IsSpecial c ∧ ∃ e, escape c = '\\' :: e := by
  unfold escape IsSpecial
  split_ifs with hquote hslash hlow
  · exact .inr ⟨.inl hquote, _, rfl⟩
  · exact .inr ⟨.inr (.inl hslash), _, rfl⟩
  · exact .inl ⟨by rintro (h | h | h) <;> [exact hquote h; exact hslash h; omega], rfl⟩
  all_goals exact .inr ⟨.inr (.inr (Nat.not_le.mp hlow)), _, rfl⟩

/-- **What the writer puts between quotes keeps raw what it may.** -/
theorem keepsRaw_escape (s : List Char) : KeepsRaw (s.flatMap escape) s := by
  induction s with
  | nil => exact .nil
  | cons c s ih =>
    rw [List.flatMap_cons]
    -- by what becomes of the first character
    rcases escape_cases c with ⟨hplain, hself⟩ | ⟨hspecial, e, hescape⟩
    · rw [hself]
      exact .raw hplain ih
    · -- that the escape spells the character was shown for the reader already
      have hspells := spellsChars_escape c
      rw [hescape] at hspells ⊢
      exact .escaped hspecial hspells ih

/-- An escape never closes the quotes. -/
theorem isBody_escape (c : Char) : IsBody (escape c) := by
  have hdigit : ∀ n < 32, hexDigit (n / 16) ≠ '"' ∧ hexDigit (n / 16) ≠ '\\' ∧
      hexDigit (n % 16) ≠ '"' ∧ hexDigit (n % 16) ≠ '\\' := by decide
  unfold escape
  split_ifs with hquote hslash hlow
  · exact .escaped _ .nil
  · exact .escaped _ .nil
  · exact .plain hquote hslash .nil
  iterate 5 exact .escaped _ .nil
  -- the number of a control character, of four digits
  obtain ⟨hhigh, hhigh', hlast, hlast'⟩ := hdigit c.toNat (by omega)
  have hzero {t : List Char} (h : IsBody t) : IsBody ('0' :: t) :=
    .plain (by decide) (by decide) h
  exact .escaped _ (hzero (hzero (.plain hhigh hhigh' (.plain hlast hlast' .nil))))

/-! ### Parts of compact texts -/

/-- A character that is seen: ASCII, no control and no space. -/
def IsVisible (c : Char) : Prop := 0x21 ≤ c.toNat ∧ c.toNat ≤ 0x7E

instance : DecidablePred IsVisible := fun _ => inferInstanceAs (Decidable (_ ∧ _))

/-- **The parts of a text without white space**, with the strings `ss` between its quotes. -/
structure IsLexed (parts : List Part) (ss : List String) : Prop where
  strings : List.Forall₂ (fun body s => KeepsRaw body s.toList) (bodies parts) ss
  visible : ∀ c, .outside c ∈ parts → IsVisible c

/-- **A stretch of text without white space**, with the strings `ss` in it. -/
def Lexes (t : List Char) (ss : List String) : Prop :=
  ∃ parts, Scans t parts ∧ IsLexed parts ss

variable {c : Char} {t t' : List Char} {ss ss' : List String}

/-- **Stretches in a row** have their strings in a row. -/
theorem Lexes.append (h : Lexes t ss) (h' : Lexes t' ss') : Lexes (t ++ t') (ss ++ ss') := by
  obtain ⟨ps, hscans, hstrings, hvisible⟩ := h
  obtain ⟨ps', hscans', hstrings', hvisible'⟩ := h'
  refine ⟨ps ++ ps', hscans.append hscans', ?_, fun c hc => ?_⟩
  · rw [bodies_append]
    exact List.rel_append hstrings hstrings'
  · exact (List.mem_append.mp hc).elim (hvisible c) (hvisible' c)

/-- A text of visible characters without quotes. -/
def IsPunctuation (cs : List Char) : Prop := ∀ c ∈ cs, c ≠ '"' ∧ IsVisible c

instance : DecidablePred IsPunctuation := fun cs => List.decidableBAll _ cs

/-- Punctuation has no string in it. -/
theorem lexes_unquoted (h : IsPunctuation t) : Lexes t [] := by
  refine ⟨unquoted t, scans_unquoted fun hquote => (h _ hquote).1 rfl, ?_, fun c hc => ?_⟩
  · rw [bodies_unquoted]
    exact .nil
  · obtain ⟨d, hd, hdc⟩ := List.mem_map.mp hc
    rw [← Part.outside.inj hdc]
    exact (h d hd).2

/-- **A number** has no string in it, and no white space. -/
theorem lexes_number (n : Number) : Lexes n.chars [] := by
  refine lexes_unquoted fun c hc => ?_
  obtain ⟨hlow, hhigh⟩ := (areFigures_number n c hc).bounds
  refine ⟨?_, by omega, by omega⟩
  rintro rfl
  exact absurd hlow (by decide)

/-- **A string** is written between quotes, with nothing outside of them. -/
theorem lexes_stringChars (s : String) : Lexes (stringChars s) [s] := by
  refine ⟨_, (isBody_flatMap isBody_escape).scans, ?_, fun c hc => ?_⟩
  · exact .cons (keepsRaw_escape s.toList) .nil
  · cases List.mem_singleton.mp hc

/-- A character of punctuation in front. -/
theorem Lexes.cons (hc : c ≠ '"' ∧ IsVisible c) (h : Lexes t ss) : Lexes (c :: t) ss := by
  have hfirst : Lexes [c] [] := lexes_unquoted (List.forall_mem_singleton.mpr hc)
  exact hfirst.append h

/-- A member with its key. -/
theorem Lexes.member (h : Lexes t ss) (k : String) : Lexes (stringChars k ++ ':' :: t) (k :: ss) :=
  (lexes_stringChars k).append (h.cons (by decide))

-- Case by case as the writer goes: what comes behind the first item of a container begins with a
-- comma or closes the container, and has its own lemma.
mutual

/-- **The compact text of a value**, with the strings of the value in it. -/
theorem lexes_chars : ∀ v : Value, Lexes v.chars v.texts
  | .null => lexes_unquoted (by decide)
  | .bool true => lexes_unquoted (by decide)
  | .bool false => lexes_unquoted (by decide)
  | .number n => by
    rw [Value.chars, Value.texts]
    exact lexes_number n
  | .string s => by
    rw [Value.chars, Value.texts]
    exact lexes_stringChars s
  | .array [] => lexes_unquoted (by decide)
  | .array (v :: vs) => by
    rw [Value.chars, Value.texts, itemTexts]
    exact ((lexes_chars v).cons (by decide)).append (lexes_moreItems vs)
  | .object [] => lexes_unquoted (by decide)
  | .object ((k, v) :: ms) => by
    rw [Value.chars, Value.texts, memberTexts]
    exact (((lexes_chars v).member k).cons (by decide)).append (lexes_moreMembers ms)

/-- What comes behind an item. -/
theorem lexes_moreItems : ∀ vs : List Value, Lexes (moreItems vs) (itemTexts vs)
  | [] => lexes_unquoted (by decide)
  | v :: vs => by
    rw [moreItems, itemTexts]
    exact ((lexes_chars v).cons (by decide)).append (lexes_moreItems vs)

/-- What comes behind a member. -/
theorem lexes_moreMembers : ∀ ms : Members, Lexes (moreMembers ms) (memberTexts ms)
  | [] => lexes_unquoted (by decide)
  | (k, v) :: ms => by
    rw [moreMembers, memberTexts]
    exact (((lexes_chars v).member k).cons (by decide)).append (lexes_moreMembers ms)

end

end TokenForge.Json
