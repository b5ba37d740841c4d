import TokenForge.Text.Utf8

/-!
# Texts through UTF-8

The bytes of a text are cut into the characters of the text again (`Utf8.pieces_encode`). So they
spell the text (`text?_utf8`), and no other text has the same bytes (`Utf8.encode_injective`).

* `Utf8.tails_ofNat_two` and its like — the lead bytes of characters;
* `Utf8.pieces_utf8EncodeChar` — the character at the front of some bytes;
* `Utf8.eq_or_of_lead` and `Utf8.exists_of_encode_eq_append` — texts that share their first bytes;
* `head?_of_utf8_eq_dash` — a first byte that is a dash is a first character.
-/

namespace TokenForge

namespace Utf8

/-! ### Lead bytes and those that follow them -/

/-- A byte below 128 is a character by itself. -/
theorem tails_ofNat_one : ∀ n < 0x80, tails (UInt8.ofNat n) = some 0 := by
  decide

/-- The lead bytes of characters of two bytes. -/
theorem tails_ofNat_two : ∀ n < 32, 2 ≤ n → tails (UInt8.ofNat (n + 0xC0)) = some 1 := by
  decide

theorem tails_ofNat_three : ∀ n < 16, tails (UInt8.ofNat (n + 0xE0)) = some 2 := by
  decide

theorem tails_ofNat_four : ∀ n < 5, tails (UInt8.ofNat (n + 0xF0)) = some 3 := by
  decide

theorem isTail_ofNat : ∀ n < 64, isTail (UInt8.ofNat (n + 0x80)) = true := by
  decide

/-- Any tail may stand behind the lead byte of two bytes. -/
theorem isSecond_ofNat_two :
    ∀ m < 32, 2 ≤ m → ∀ n < 64,
      isSecond (UInt8.ofNat (m + 0xC0)) (UInt8.ofNat (n + 0x80)) = true := by
  decide

/-- Behind the first lead byte of three no shorter form, and no surrogate behind the fourteenth. -/
theorem isSecond_ofNat_three :
    ∀ m < 16, ∀ n < 64, (m = 0 → 32 ≤ n) → (m = 13 → n < 32) →
      isSecond (UInt8.ofNat (m + 0xE0)) (UInt8.ofNat (n + 0x80)) = true := by
  decide

/-- Behind the first lead byte of four no shorter form, and nothing too large behind the last. -/
theorem isSecond_ofNat_four :
    ∀ m < 5, ∀ n < 64, (m = 0 → 16 ≤ n) → (m = 4 → n < 16) →
      isSecond (UInt8.ofNat (m + 0xF0)) (UInt8.ofNat (n + 0x80)) = true := by
  decide

/-! ### The character at the front -/

variable {a b c d : UInt8} {v : Nat} (rest : Bytes)

/-- Two bytes that belong together are one character. -/
theorem pieces_two (ha : tails a = some 1) (hb : isSecond a b = true) :
    pieces (a :: b :: rest) = .char (assemble (a.toNat % 32) [b]) :: pieces rest := by
  rw [pieces, ha]
  simp [hb]

/-- Three bytes that belong together are one character. -/
theorem pieces_three (ha : tails a = some 2) (hb : isSecond a b = true) (hc : isTail c = true) :
    pieces (a :: b :: c :: rest) = .char (assemble (a.toNat % 16) [b, c]) :: pieces rest := by
  rw [pieces, ha]
  simp [hb, hc]

/-- Four bytes that belong together are one character. -/
theorem pieces_four (ha : tails a = some 3) (hb : isSecond a b = true) (hc : isTail c = true)
    (hd : isTail d = true) :
    pieces (a :: b :: c :: d :: rest) =
      .char (assemble (a.toNat % 8) [b, c, d]) :: pieces rest := by
  rw [pieces, ha]
  simp [hb, hc, hd]

/-- A character of seven bits is the one byte that it is. -/
theorem pieces_ofNat_one (h : v ≤ 0x7F) :
    pieces (UInt8.ofNat v :: rest) = .char (Char.ofNat v) :: pieces rest := by
  have hvalue : v % 2 ^ 8 = v := by omega
  rw [pieces, tails_ofNat_one v (by omega)]
  simp only [assemble, UInt8.toNat_ofNat', hvalue, List.foldl_nil]

/-- A character of eleven bits has its upper five in the lead byte. -/
theorem pieces_ofNat_two (h₁ : 0x7F < v) (h₂ : v ≤ 0x7FF) :
    pieces (UInt8.ofNat (v / 64 % 32 + 0xC0) :: UInt8.ofNat (v % 64 + 0x80) :: rest) =
      .char (Char.ofNat v) :: pieces rest := by
  have hlead := tails_ofNat_two (v / 64 % 32) (by omega) (by omega)
  have hsecond := isSecond_ofNat_two (v / 64 % 32) (by omega) (by omega) (v % 64) (by omega)
  -- the bits are put together as they were parted
  have hvalue : (v / 64 % 32 + 0xC0) % 2 ^ 8 % 32 * 64 + (v % 64 + 0x80) % 2 ^ 8 % 64 = v := by
    omega
  rw [pieces_two rest hlead hsecond]
  simp only [assemble, List.foldl_cons, List.foldl_nil, UInt8.toNat_ofNat', hvalue]

/-- A character of sixteen bits has three bytes, unless it were a surrogate. -/
theorem pieces_ofNat_three (h₂ : 0x7FF < v) (h₃ : v ≤ 0xFFFF) (hvalid : v < 0xD800 ∨ 0xDFFF < v) :
    pieces (UInt8.ofNat (v / 4096 % 16 + 0xE0) :: UInt8.ofNat (v / 64 % 64 + 0x80) ::
        UInt8.ofNat (v % 64 + 0x80) :: rest) =
      .char (Char.ofNat v) :: pieces rest := by
  have hlead := tails_ofNat_three (v / 4096 % 16) (by omega)
  have hsecond := isSecond_ofNat_three (v / 4096 % 16) (by omega) (v / 64 % 64) (by omega)
    (by omega) (by omega)
  have hthird := isTail_ofNat (v % 64) (by omega)
  have hvalue : ((v / 4096 % 16 + 0xE0) % 2 ^ 8 % 16 * 64 +
      (v / 64 % 64 + 0x80) % 2 ^ 8 % 64) * 64 + (v % 64 + 0x80) % 2 ^ 8 % 64 = v := by omega
  rw [pieces_three rest hlead hsecond hthird]
  simp only [assemble, List.foldl_cons, List.foldl_nil, UInt8.toNat_ofNat', hvalue]

/-- Any greater character has four bytes. -/
theorem pieces_ofNat_four (h₃ : 0xFFFF < v) (hvalid : v < 0x110000) :
    pieces (UInt8.ofNat (v / 262144 % 8 + 0xF0) :: UInt8.ofNat (v / 4096 % 64 + 0x80) ::
        UInt8.ofNat (v / 64 % 64 + 0x80) :: UInt8.ofNat (v % 64 + 0x80) :: rest) =
      .char (Char.ofNat v) :: pieces rest := by
  have hlead := tails_ofNat_four (v / 262144 % 8) (by omega)
  have hsecond := isSecond_ofNat_four (v / 262144 % 8) (by omega) (v / 4096 % 64) (by omega)
    (by omega) (by omega)
  have hthird := isTail_ofNat (v / 64 % 64) (by omega)
  have hfourth := isTail_ofNat (v % 64) (by omega)
  have hvalue : (((v / 262144 % 8 + 0xF0) % 2 ^ 8 % 8 * 64 +
      (v / 4096 % 64 + 0x80) % 2 ^ 8 % 64) * 64 + (v / 64 % 64 + 0x80) % 2 ^ 8 % 64) * 64 +
      (v % 64 + 0x80) % 2 ^ 8 % 64 = v := by omega
  rw [pieces_four rest hlead hsecond hthird hfourth]
  simp only [assemble, List.foldl_cons, List.foldl_nil, UInt8.toNat_ofNat', hvalue]

/-- **The bytes of a character at the front are cut off as that character.** -/
theorem pieces_utf8EncodeChar (c : Char) :
    pieces (String.utf8EncodeChar c ++ rest) = .char c :: pieces rest := by
  have hvalid : c.val.toNat < 0xD800 ∨ 0xDFFF < c.val.toNat ∧ c.val.toNat < 0x110000 := c.valid
  have hchar : Char.ofNat c.val.toNat = c := Char.ofNat_toNat c
  -- the encoder goes by the size of the character, from one byte to four
  rw [String.utf8EncodeChar]
  by_cases h₁ : c.val.toNat ≤ 0x7F
  · rw [if_pos h₁, List.singleton_append, pieces_ofNat_one rest h₁, hchar]
  rw [if_neg h₁]
  by_cases h₂ : c.val.toNat ≤ 0x7FF
  · rw [if_pos h₂, List.cons_append, List.singleton_append,
      pieces_ofNat_two rest (by omega) h₂, hchar]
  rw [if_neg h₂]
  by_cases h₃ : c.val.toNat ≤ 0xFFFF
  · rw [if_pos h₃, List.cons_append, List.cons_append, List.singleton_append,
      pieces_ofNat_three rest (by omega) h₃ (by omega), hchar]
  · rw [if_neg h₃, List.cons_append, List.cons_append, List.cons_append, List.singleton_append,
      pieces_ofNat_four rest (by omega) (by omega), hchar]

/-! ### Texts -/

/-- **The bytes of a text are cut into its characters.** -/
theorem pieces_encode (cs : List Char) : pieces (encode cs) = cs.map .char := by
  induction cs with
  | nil => rfl
  | cons c cs ih =>
    rw [encode] at ih
    rw [encode, List.flatMap_cons, pieces_utf8EncodeChar, ih, List.map_cons]

/-- The bytes of some characters are decoded to them. -/
theorem decode?_encode (cs : List Char) : decode? (encode cs) = some cs := by
  rw [decode?, pieces_encode, List.mapM_map]
  -- every piece is a character, so none is in the way
  change cs.mapM some = some cs
  induction cs with
  | nil => rfl
  | cons c cs ih =>
    rw [List.mapM_cons, ih]
    rfl

/-- **No two texts have the same bytes.** -/
theorem encode_injective : Function.Injective encode := by
  intro cs ds h
  have hdecode := decode?_encode cs
  rw [h, decode?_encode] at hdecode
  exact (Option.some.inj hdecode).symm

/-! ### Bytes that two texts share -/

/-- **The first byte of a character tells how many follow it.** -/
theorem exists_lead (c : Char) :
    ∃ a as, String.utf8EncodeChar c = a :: as ∧ tails a = some as.length := by
  have hlt : c.val.toNat < 0x110000 := by
    rcases c.valid with h | h
    · exact Nat.lt_trans h (by decide)
    · exact h.2
  rw [String.utf8EncodeChar]
  by_cases h₁ : c.val.toNat ≤ 0x7F
  · rw [if_pos h₁]
    exact ⟨_, _, rfl, tails_ofNat_one _ (by omega)⟩
  rw [if_neg h₁]
  by_cases h₂ : c.val.toNat ≤ 0x7FF
  · rw [if_pos h₂]
    exact ⟨_, _, rfl, tails_ofNat_two _ (by omega) (by omega)⟩
  rw [if_neg h₂]
  by_cases h₃ : c.val.toNat ≤ 0xFFFF
  · rw [if_pos h₃]
    exact ⟨_, _, rfl, tails_ofNat_three _ (by omega)⟩
  · rw [if_neg h₃]
    exact ⟨_, _, rfl, tails_ofNat_four _ (by omega)⟩

theorem utf8EncodeChar_injective : Function.Injective String.utf8EncodeChar := by
  intro c d h
  have hencode : encode [c] = encode [d] := by simp [encode, h]
  exact (List.cons.inj (encode_injective hencode)).1

/-- **Characters with the same first byte** are the same, or both take as many bytes, more than
one. -/
theorem eq_or_of_lead {c d : Char} {a : UInt8} {as bs : Bytes}
    (hc : String.utf8EncodeChar c = a :: as) (hd : String.utf8EncodeChar d = a :: bs) :
    c = d ∨ 1 < c.utf8Size ∧ c.utf8Size = d.utf8Size := by
  -- the first byte tells how many follow, and it is the same
  have hsize : as.length = bs.length := by
    obtain ⟨a₁, as₁, hc₁, htails⟩ := exists_lead c
    obtain ⟨a₂, bs₁, hd₁, htails₁⟩ := exists_lead d
    obtain ⟨rfl, rfl⟩ := List.cons.inj (hc.symm.trans hc₁)
    obtain ⟨rfl, rfl⟩ := List.cons.inj (hd.symm.trans hd₁)
    exact Option.some.inj (htails.symm.trans htails₁)
  have hcsize := String.length_utf8EncodeChar c
  have hdsize := String.length_utf8EncodeChar d
  rw [hc, List.length_cons] at hcsize
  rw [hd, List.length_cons] at hdsize
  -- one byte is all of the character, so the two are the same
  cases as with
  | nil =>
    obtain rfl := List.length_eq_zero_iff.mp hsize.symm
    exact .inl (utf8EncodeChar_injective (hc.trans hd.symm))
  | cons b as =>
    rw [List.length_cons] at hcsize hsize
    exact .inr ⟨by omega, by omega⟩

/-- **A text whose bytes begin with those of another** begins with the other. -/
theorem exists_of_encode_eq_append {cs ds : List Char} {rest : Bytes}
    (h : encode ds = encode cs ++ rest) : ∃ es, ds = cs ++ es ∧ encode es = rest := by
  induction cs generalizing ds with
  | nil => exact ⟨ds, rfl, h⟩
  | cons c cs ih =>
    have hpieces := congrArg pieces h
    rw [pieces_encode, encode, List.flatMap_cons, List.append_assoc, pieces_utf8EncodeChar]
      at hpieces
    cases ds with
    | nil => exact absurd hpieces (by simp)
    | cons d ds =>
      obtain rfl : d = c := Piece.char.inj (List.cons.inj hpieces).1
      rw [encode, encode, List.flatMap_cons, List.flatMap_cons, List.append_assoc] at h
      obtain ⟨es, rfl, hes⟩ := ih (List.append_cancel_left h)
      exact ⟨es, rfl, hes⟩

/-- No other character has the byte of a line feed. -/
theorem lineFeed_not_mem_utf8EncodeChar {c : Char} (h : c ≠ '\n') :
    0x0A ∉ String.utf8EncodeChar c := by
  have hten : c.val.toNat ≠ 0x0A := by
    intro hval
    have := Char.ofNat_toNat c
    rw [Char.toNat, hval] at this
    exact h this.symm
  have hbyte : ∀ n < 256, n ≠ 10 → (0x0A : UInt8) ≠ UInt8.ofNat n := by
    intro n hn hne h
    have hnat := congrArg UInt8.toNat h
    rw [UInt8.toNat_ofNat'] at hnat
    exact hne (by simpa [Nat.mod_eq_of_lt hn] using hnat.symm)
  rw [String.utf8EncodeChar]
  by_cases h₁ : c.val.toNat ≤ 0x7F
  · rw [if_pos h₁]
    simpa using hbyte _ (by omega) hten
  -- the bytes of all longer forms are large
  rw [if_neg h₁]
  have hcons : ∀ n < 256, 0x80 ≤ n → ∀ bs : Bytes, 0x0A ∉ bs → 0x0A ∉ UInt8.ofNat n :: bs :=
    fun n hn hle _ hbs => List.not_mem_cons_of_ne_of_not_mem (hbyte n hn (by omega)) hbs
  split
  · exact hcons _ (by omega) (by omega) _ (hcons _ (by omega) (by omega) _ List.not_mem_nil)
  · split
    · exact hcons _ (by omega) (by omega) _ (hcons _ (by omega) (by omega) _
        (hcons _ (by omega) (by omega) _ List.not_mem_nil))
    · exact hcons _ (by omega) (by omega) _ (hcons _ (by omega) (by omega) _
        (hcons _ (by omega) (by omega) _ (hcons _ (by omega) (by omega) _ List.not_mem_nil)))

end Utf8

/-- **The bytes of a text spell it.** -/
theorem text?_utf8 (s : String) : text? (utf8 s) = some s := by
  rw [text?, utf8, Utf8.decode?_encode, Option.map_some, String.ofList_toList]

theorem utf8_append (s t : String) : utf8 (s ++ t) = utf8 s ++ utf8 t := by
  rw [utf8, String.toList_append, Utf8.encode_append]
  rfl

theorem utf8_ne_nil {s : String} (h : s ≠ "") : utf8 s ≠ [] := by
  intro hnil
  have htext := text?_utf8 s
  rw [hnil] at htext
  exact h (Option.some.inj htext).symm

/-- A text whose bytes begin with a dash begins with a dash. -/
theorem head?_of_utf8_eq_dash {s : String} {rest : Bytes} (h : utf8 s = 0x2D :: rest) :
    s.toList.head? = some '-' := by
  have hpieces := Utf8.pieces_encode s.toList
  have htails : Utf8.tails 0x2D = some 0 := by decide
  rw [show Utf8.encode s.toList = 0x2D :: rest from h, Utf8.pieces, htails] at hpieces
  -- the dash is a piece of its own, so it is the first character
  cases hs : s.toList with
  | nil =>
    rw [hs] at hpieces
    exact absurd hpieces (by simp)
  | cons c cs =>
    rw [hs] at hpieces
    have hhead : Utf8.Piece.char (Utf8.assemble (0x2D : UInt8).toNat []) = .char c :=
      (List.cons.inj hpieces).1
    rw [List.head?_cons, ← Utf8.Piece.char.inj hhead]
    decide

end TokenForge
