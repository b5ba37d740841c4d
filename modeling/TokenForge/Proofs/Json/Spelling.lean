import TokenForge.Proofs.Json.RoundTrip

/-!
# Spellings of a value

A value has many texts: any white space may stand before, between and behind its tokens, and each
character of a string or a key may stand for itself, be escaped by a letter, or be given by its
number. Here the texts are described from the value (`Value.tokens`, `Spaced`), where the grammar
describes what a text spells. Every one of them spells the value (`Spaced.spellsPadded`), so all are
read as the same payload (`Payload.read_spaced`).

* `SpellsChar` — the texts of one character of a string;
* `Token` and `Token.Spelling` — what white space may stand between, and its texts;
* `Spaced` — tokens with white space around them.
-/

namespace TokenForge.Json

/-! ### Characters -/

/-- **The texts of one character of a string.** It stands for itself where it may, or is escaped by
a letter if it has one, or is given by the number of its code unit in four digits of either case; a
character above `U+FFFF` has two code units, a leading and a trailing surrogate. -/
inductive SpellsChar : List Char → Char → Prop
  | plain {c : Char} : 0x20 ≤ c.toNat → c ≠ '"' → c ≠ '\\' → SpellsChar [c] c
  | short {e c : Char} : (e, c) ∈ shortEscapes → SpellsChar ['\\', e] c
  | unit {u : List Char} {c : Char} :
      c.toNat ≤ 0xFFFF → CodeUnit u c.toNat → SpellsChar ('\\' :: 'u' :: u) c
  | pair {u v : List Char} {c : Char} : 0xFFFF < c.toNat →
      CodeUnit u (0xD800 + (c.toNat - 0x10000) / 0x400) →
      CodeUnit v (0xDC00 + (c.toNat - 0x10000) % 0x400) →
        SpellsChar ('\\' :: 'u' :: (u ++ '\\' :: 'u' :: v)) c

/-- The text of a character spells that character. -/
theorem SpellsChar.spellsChars {t : List Char} {c : Char} (h : SpellsChar t c) :
    SpellsChars t [c] := by
  -- the number of a character is no surrogate
  have hvalid : c.toNat < 0xD800 ∨ 0xDFFF < c.toNat ∧ c.toNat < 0x110000 := c.valid
  cases h with
  | plain hlow hquote hslash => exact .plain hlow hquote hslash .nil
  | short hmem => exact .short hmem .nil
  | unit hsmall hu =>
    have hspells := SpellsChars.unit hu (hvalid.imp_right And.left) .nil
    rwa [Char.ofNat_toNat, List.append_nil] at hspells
  | pair hlarge hu hv =>
    have hspells := SpellsChars.pair hu (by omega) (by omega) hv (by omega) (by omega) .nil
    -- the surrogates hold the two halves of what is above `U+FFFF`
    have hjoin : 0x10000 + (0xD800 + (c.toNat - 0x10000) / 0x400 - 0xD800) * 0x400 +
        (0xDC00 + (c.toNat - 0x10000) % 0x400 - 0xDC00) = c.toNat := by omega
    rwa [hjoin, Char.ofNat_toNat, List.append_nil] at hspells

/-- A code unit by its four digits. -/
theorem codeUnit_of_hexDigits {a b c d : Char} {i j k l : Fin 16} {n : Nat} (ha : HexDigit a i)
    (hb : HexDigit b j) (hc : HexDigit c k) (hd : HexDigit d l)
    (hn : ((i * 16 + j) * 16 + k) * 16 + l.val = n) : CodeUnit [a, b, c, d] n := by
  have hhex := (((Hex.nil.snoc ha).snoc hb).snoc hc).snoc hd
  rw [Nat.zero_mul, Nat.zero_add, hn] at hhex
  exact ⟨rfl, hhex⟩

theorem spellsChars_flatten {ts : List (List Char)} {s : List Char}
    (h : List.Forall₂ SpellsChar ts s) : SpellsChars ts.flatten s := by
  induction h with
  | nil => exact .nil
  | cons hc _ ih => exact hc.spellsChars.append ih

/-! ### Tokens -/

/-- What white space may stand between. -/
inductive Token where
  /-- A bracket, a brace, a comma, a colon, a word or a numeral, which have one text each. -/
  | fixed (text : List Char)
  /-- A string or a key. -/
  | string (s : String)

/-- The texts of a token. The characters of a string are spelled each in its own way. -/
inductive Token.Spelling : List Char → Token → Prop
  | fixed {t : List Char} : Spelling t (.fixed t)
  | string {s : String} {ts : List (List Char)} :
      List.Forall₂ SpellsChar ts s.toList → Spelling ('"' :: (ts.flatten ++ ['"'])) (.string s)

mutual

/-- **The tokens of a value**, in their order. -/
def Value.tokens : Value → List Token
  | .null => [.fixed ['n', 'u', 'l', 'l']]
  | .bool true => [.fixed ['t', 'r', 'u', 'e']]
  | .bool false => [.fixed ['f', 'a', 'l', 's', 'e']]
  | .number n => [.fixed n.chars]
  | .string s => [.string s]
  | .array [] => [.fixed ['['], .fixed [']']]
  | .array (v :: vs) => .fixed ['['] :: (v.tokens ++ moreItemTokens vs)
  | .object [] => [.fixed ['\x7b'], .fixed ['\x7d']]
  | .object ((k, v) :: ms) =>
    .fixed ['\x7b'] :: .string k :: .fixed [':'] :: (v.tokens ++ moreMemberTokens ms)

/-- The tokens behind an item of an array, up to the closing bracket. -/
def moreItemTokens : List Value → List Token
  | [] => [.fixed [']']]
  | v :: vs => .fixed [','] :: (v.tokens ++ moreItemTokens vs)

/-- The tokens behind a member of an object, up to the closing brace. -/
def moreMemberTokens : Members → List Token
  | [] => [.fixed ['\x7d']]
  | (k, v) :: ms =>
    .fixed [','] :: .string k :: .fixed [':'] :: (v.tokens ++ moreMemberTokens ms)

end

/-- **The texts of some tokens**: any white space stands before the first, between any two and
behind the last. -/
inductive Spaced : List Char → List Token → Prop
  | nil {w : List Char} : Blank w → Spaced w []
  | cons {w t rest : List Char} {token : Token} {tokens : List Token} :
      Blank w → token.Spelling t → Spaced rest tokens → Spaced (w ++ (t ++ rest)) (token :: tokens)

variable {t x text : List Char} {s : String} {token : Token} {tokens : List Token}

/-! ### From tokens to the grammar -/

/-- The first token, if it has one text. -/
theorem Spaced.of_fixed (h : Spaced t (.fixed x :: tokens)) :
    ∃ w rest, Blank w ∧ t = w ++ (x ++ rest) ∧ Spaced rest tokens := by
  cases h with
  | cons hw htoken hrest =>
    cases htoken with
    | fixed => exact ⟨_, _, hw, rfl, hrest⟩

/-- The first token, if it is a string. -/
theorem Spaced.of_string (h : Spaced t (.string s :: tokens)) :
    ∃ w x rest, Blank w ∧ SpellsString x s ∧ t = w ++ (x ++ rest) ∧ Spaced rest tokens := by
  cases h with
  | cons hw htoken hrest =>
    cases htoken with
    | string hchars => exact ⟨_, _, _, hw, ⟨_, rfl, spellsChars_flatten hchars⟩, rfl, hrest⟩

/-- A value of one token with a text of its own. -/
theorem Spaced.of_fixed_value {v : Value} (hv : Spells x v) (h : Spaced t (.fixed x :: tokens)) :
    ∃ x rest, t = x ++ rest ∧ SpellsPadded x v ∧ Spaced rest tokens := by
  obtain ⟨w, rest, hw, rfl, hrest⟩ := h.of_fixed
  exact ⟨w ++ x ++ [], rest, by simp, .mk hw hv .nil, hrest⟩

/-- White space behind what is padded already. -/
theorem SpellsPadded.snoc_blank {v : Value} {w : List Char} (h : SpellsPadded x v) (hw : Blank w) :
    SpellsPadded (x ++ w) v := by
  cases h with
  | @mk w₁ y w₂ _ hw₁ hv hw₂ =>
    have hboth : Blank (w₂ ++ w) := fun c hc => (List.mem_append.mp hc).elim (hw₂ c) (hw c)
    have hpad := SpellsPadded.mk hw₁ hv hboth
    simpa using hpad

/-- White space behind a member. -/
theorem SpellsMember.snoc_blank {m : String × Value} {w : List Char} (h : SpellsMember x m)
    (hw : Blank w) : SpellsMember (x ++ w) m := by
  cases h with
  | @mk w₁ k w₂ y _ _ hw₁ hk hw₂ hv =>
    have hmem := SpellsMember.mk hw₁ hk hw₂ (hv.snoc_blank hw)
    simpa using hmem

mutual

/-- **The texts of a value's tokens spell the value**, and what follows is the text of the tokens
that follow. -/
theorem Spaced.of_value : ∀ v : Value, v.All Value.IsWhole →
    ∀ {t : List Char} {tokens : List Token}, Spaced t (v.tokens ++ tokens) →
      ∃ x rest, t = x ++ rest ∧ SpellsPadded x v ∧ Spaced rest tokens
  | .null, _, _, _, h => h.of_fixed_value .null
  | .bool true, _, _, _, h => h.of_fixed_value .true
  | .bool false, _, _, _, h => h.of_fixed_value .false
  | .number (.whole n), _, _, _, h => h.of_fixed_value (spells_whole n)
  | .number (.real _), hwhole, _, _, _ => absurd hwhole (by simp [Value.All, Value.IsWhole])
  | .string s, _, _, _, h => by
    obtain ⟨w, x, rest, hw, hx, rfl, hrest⟩ := Spaced.of_string h
    exact ⟨w ++ x ++ [], rest, by simp, .mk hw (.string hx) .nil, hrest⟩
  | .array [], _, _, _, h => by
    obtain ⟨w, _, hw, rfl, hclose⟩ := Spaced.of_fixed h
    obtain ⟨w', rest, hw', rfl, hrest⟩ := hclose.of_fixed
    exact ⟨w ++ '[' :: (w' ++ [']']) ++ [], rest, by simp, .mk hw (.emptyArray hw') .nil, hrest⟩
  -- bracket, first item and what is behind it, as the tokens come
  | .array (v :: vs), hwhole, _, _, h => by
    rw [Value.tokens, List.cons_append, List.append_assoc] at h
    obtain ⟨w, _, hw, rfl, hitems⟩ := h.of_fixed
    obtain ⟨x, _, rfl, hx, hmore⟩ := Spaced.of_value v hwhole.2.1 hitems
    obtain ⟨ts, rest, hts, hspells, hrest⟩ := Spaced.of_moreItems vs hwhole.2.2 hx hmore
    refine ⟨w ++ '[' :: (ts ++ [']']) ++ [], rest, ?_, .mk hw (.array hspells) .nil, hrest⟩
    simp [hts]
  | .object [], _, _, _, h => by
    obtain ⟨w, _, hw, rfl, hclose⟩ := Spaced.of_fixed h
    obtain ⟨w', rest, hw', rfl, hrest⟩ := hclose.of_fixed
    exact ⟨w ++ '\x7b' :: (w' ++ ['\x7d']) ++ [], rest, by simp,
      .mk hw (.emptyObject hw') .nil, hrest⟩
  -- brace, first key, colon and value, and what is behind them
  | .object ((k, v) :: ms), hwhole, _, _, h => by
    rw [Value.tokens, List.cons_append, List.cons_append, List.cons_append, List.append_assoc] at h
    obtain ⟨w, _, hw, rfl, hkey⟩ := h.of_fixed
    obtain ⟨w₁, y, _, hw₁, hy, rfl, hcolon⟩ := hkey.of_string
    obtain ⟨w₂, _, hw₂, rfl, hvalue⟩ := hcolon.of_fixed
    obtain ⟨x, _, rfl, hx, hmore⟩ := Spaced.of_value v hwhole.2.1 hvalue
    obtain ⟨ts, rest, hts, hspells, hrest⟩ :=
      Spaced.of_moreMembers ms hwhole.2.2 (.mk hw₁ hy hw₂ hx) hmore
    refine ⟨w ++ '\x7b' :: (ts ++ ['\x7d']) ++ [], rest, ?_, .mk hw (.object hspells) .nil, hrest⟩
    simp [← hts]

/-- The same for what is behind an item: with the item's text in front it spells all items. -/
theorem Spaced.of_moreItems : ∀ vs : List Value, AllItems Value.IsWhole vs →
    ∀ {t x : List Char} {u : Value} {tokens : List Token}, SpellsPadded x u →
      Spaced t (moreItemTokens vs ++ tokens) →
        ∃ ts rest, x ++ t = ts ++ ']' :: rest ∧ SpellsItems ts (u :: vs) ∧ Spaced rest tokens
  | [], _, _, x, _, _, hu, h => by
    obtain ⟨w, rest, hw, rfl, hrest⟩ := Spaced.of_fixed h
    exact ⟨x ++ w, rest, by simp, .last (hu.snoc_blank hw), hrest⟩
  | v :: vs, hwhole, _, x, _, _, hu, h => by
    rw [moreItemTokens, List.cons_append, List.append_assoc] at h
    obtain ⟨w, _, hw, rfl, hitems⟩ := h.of_fixed
    obtain ⟨y, _, rfl, hy, hmore⟩ := Spaced.of_value v hwhole.1 hitems
    obtain ⟨ts, rest, hts, hspells, hrest⟩ := Spaced.of_moreItems vs hwhole.2 hy hmore
    refine ⟨x ++ w ++ ',' :: ts, rest, ?_, .more (hu.snoc_blank hw) hspells, hrest⟩
    simp [hts]

/-- The same for what is behind a member. -/
theorem Spaced.of_moreMembers : ∀ ms : Members, AllMembers Value.IsWhole ms →
    ∀ {t x : List Char} {m : String × Value} {tokens : List Token}, SpellsMember x m →
      Spaced t (moreMemberTokens ms ++ tokens) →
        ∃ ts rest, x ++ t = ts ++ '\x7d' :: rest ∧ SpellsMembers ts (m :: ms) ∧ Spaced rest tokens
  | [], _, _, x, _, _, hm, h => by
    obtain ⟨w, rest, hw, rfl, hrest⟩ := Spaced.of_fixed h
    exact ⟨x ++ w, rest, by simp, .last (hm.snoc_blank hw), hrest⟩
  | (k, v) :: ms, hwhole, _, x, _, _, hm, h => by
    rw [moreMemberTokens, List.cons_append, List.cons_append, List.cons_append,
      List.append_assoc] at h
    obtain ⟨w, _, hw, rfl, hkey⟩ := h.of_fixed
    obtain ⟨w₁, y, _, hw₁, hy, rfl, hcolon⟩ := hkey.of_string
    obtain ⟨w₂, _, hw₂, rfl, hvalue⟩ := hcolon.of_fixed
    obtain ⟨z, _, rfl, hz, hmore⟩ := Spaced.of_value v hwhole.1 hvalue
    obtain ⟨ts, rest, hts, hspells, hrest⟩ :=
      Spaced.of_moreMembers ms hwhole.2 (.mk hw₁ hy hw₂ hz) hmore
    refine ⟨x ++ w ++ ',' :: ts, rest, ?_, .more (hm.snoc_blank hw) hspells, hrest⟩
    simp [← hts]

end

/-- The texts of all tokens of a value are texts that spell the value. -/
theorem Spaced.spellsPadded {v : Value} (hv : v.All Value.IsWhole) (h : Spaced t v.tokens) :
    SpellsPadded t v := by
  rw [← List.append_nil v.tokens] at h
  obtain ⟨x, w, rfl, hx, hrest⟩ := Spaced.of_value v hv h
  cases hrest with
  | nil hw => exact hx.snoc_blank hw

end TokenForge.Json

namespace TokenForge.Payload

open Json

/-- **Spelling does not matter.** An object that its compact text keeps is read as it is from each
of its texts, whatever white space stands between the tokens and however the characters of its
strings and keys are spelled. -/
theorem read_spaced {v : Value} {text : String} (hv : v.IsKept)
    (h : Spaced text.toList v.tokens) : read text = .ok v := by
  have htext : IsText text v := ⟨h.spellsPadded hv.whole, hv.shallow⟩
  -- its keys are distinct, so nothing is put together
  have hread := read_eq_ok_iff_isText.mpr ⟨v, htext, (v.merged_eq_self hv.distinct).symm⟩
  exact read_of_isObject hread hv.object

/-- An object with a character of two code units in its key. -/
def smiling : Value := .object [("aé😀", .array [.ofWhole { val := -5 }, .string "/"])]

/-- A text of it: white space of all kinds, and each way to spell a character. -/
def smilingText : String := "\t\x7b \"a\\u00E9\\uD83d\\ude00\" :\n[-5 , \"\\/\"]\r\x7d "

/-- Every token of it, with what stands before the token. -/
theorem spaced_smilingText : Spaced smilingText.toList smiling.tokens := by
  have hblank (c : Char) (hc : isSpace c = true) : Blank [c] := by
    intro d hd
    rw [List.mem_singleton.mp hd]
    exact isSpace_iff.mp hc
  have hacute : SpellsChar ['\\', 'u', '0', '0', 'E', '9'] 'é' :=
    .unit (by decide) (codeUnit_of_hexDigits (i := 0) (j := 0) (k := 14) (l := 9)
      (by decide) (by decide) (by decide) (by decide) (by decide))
  have hsmile : SpellsChar ['\\', 'u', 'D', '8', '3', 'd', '\\', 'u', 'd', 'e', '0', '0'] '😀' :=
    .pair (u := ['D', '8', '3', 'd']) (by decide)
      (codeUnit_of_hexDigits (i := 13) (j := 8) (k := 3) (l := 13)
        (by decide) (by decide) (by decide) (by decide) (by decide))
      (codeUnit_of_hexDigits (i := 13) (j := 14) (k := 0) (l := 0)
        (by decide) (by decide) (by decide) (by decide) (by decide))
  have hkey : Token.Spelling _ (.string "aé😀") :=
    .string (.cons (.plain (by decide) (by decide) (by decide)) (.cons hacute (.cons hsmile .nil)))
  have hslash : Token.Spelling _ (.string "/") :=
    .string (.cons (.short (e := '/') (by decide)) .nil)
  -- from the last token on
  have hclose := Spaced.cons .nil (.fixed (t := [']']))
    (.cons (hblank '\r' rfl) (.fixed (t := ['\x7d'])) (.nil (hblank ' ' rfl)))
  have hitems := Spaced.cons .nil (.fixed (t := ['-', '5']))
    (.cons (hblank ' ' rfl) (.fixed (t := [','])) (.cons (hblank ' ' rfl) hslash hclose))
  have harray := Spaced.cons (hblank '\n' rfl) (.fixed (t := ['['])) hitems
  have hmember := Spaced.cons (hblank ' ' rfl) hkey
    (.cons (hblank ' ' rfl) (.fixed (t := [':'])) harray)
  exact .cons (hblank '\t' rfl) (.fixed (t := ['\x7b'])) hmember

/-- The object is read from that text. -/
theorem read_spaced_smiling :
    smiling.IsKept ∧ Spaced smilingText.toList smiling.tokens ∧ read smilingText = .ok smiling := by
  have hkept : smiling.IsKept := by
    refine ⟨rfl, ?_, ?_, by decide⟩
    · simp [smiling, Value.All, AllMembers, AllItems, Value.IsWhole, Value.ofWhole]
    · simp [smiling, Value.All, AllMembers, AllItems, Value.HasDistinctKeys, Value.ofWhole]
  exact ⟨hkept, spaced_smilingText, read_spaced hkept spaced_smilingText⟩

end TokenForge.Payload
