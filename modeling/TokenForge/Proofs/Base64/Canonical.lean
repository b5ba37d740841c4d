import TokenForge.Proofs.Base64.Padded
import TokenForge.Proofs.Except
import TokenForge.Proofs.Text.Utf8

/-!
# Base64 has one form

Nothing is decoded but encodings: a text that the reader of armored data takes is, byte for byte, the
padded encoding of the bytes that it gives (`decode_eq_ok_iff`). So it is made of whole quads, has
padding only in the last, and sets no bit behind the last byte (`IsCanonical`).

* `valueAt_eq_ok`, `lastSymbols_eq_ok`, `lastQuad_eq_ok` — what is read at one place, at the end, and
  as the last quad;
* `encodeThree_quadBytes` and its cases for less bytes — the symbols of a quad come back from its
  bytes.
-/

namespace TokenForge.Base64

/-! ### Symbols -/

/-- **What stands for a number is the symbol for it.** -/
theorem Alphabet.symbol_of_value? {a : Alphabet} {c : Char} {n : Nat} (h : a.value? c = some n) :
    n < 64 ∧ a.symbol n = c := by
  have hchar : Char.ofNat c.toNat = c := Char.ofNat_toNat c
  have hA : 'A'.toNat = 65 := rfl
  have ha : 'a'.toNat = 97 := rfl
  have h0 : '0'.toNat = 48 := rfl
  unfold Alphabet.value? at h
  unfold Alphabet.symbol
  -- the ranges of the alphabet, one after the other, and the two characters that are its own
  split at h
  · next hupper =>
    have hle : 65 ≤ c.toNat := hupper.1
    have hge : c.toNat ≤ 90 := hupper.2
    obtain rfl := Option.some.inj h
    have hsum : 'A'.toNat + (c.toNat - 'A'.toNat) = c.toNat := by omega
    rw [if_pos (by omega), hsum, hchar]
    exact ⟨by omega, rfl⟩
  split at h
  · next hlower =>
    have hle : 97 ≤ c.toNat := hlower.1
    have hge : c.toNat ≤ 122 := hlower.2
    obtain rfl := Option.some.inj h
    have hsum : 'a'.toNat + (c.toNat - 'a'.toNat + 26 - 26) = c.toNat := by omega
    rw [if_neg (by omega), if_pos (by omega), hsum, hchar]
    exact ⟨by omega, rfl⟩
  split at h
  · next hdigit =>
    have hle : 48 ≤ c.toNat := hdigit.1
    have hge : c.toNat ≤ 57 := hdigit.2
    obtain rfl := Option.some.inj h
    have hsum : '0'.toNat + (c.toNat - '0'.toNat + 52 - 52) = c.toNat := by omega
    rw [if_neg (by omega), if_neg (by omega), if_pos (by omega), hsum, hchar]
    exact ⟨by omega, rfl⟩
  split at h
  · next hminor =>
    obtain rfl := Option.some.inj h
    exact ⟨by omega, hminor.symm⟩
  split at h
  · next hmajor =>
    obtain rfl := Option.some.inj h
    exact ⟨by omega, hmajor.symm⟩
  · exact absurd h (by simp)

/-- A byte that stands for a number is the byte of its symbol. -/
theorem byteValue?_eq_some {b : UInt8} {n : Nat} (h : byteValue? b = some n) :
    n < 64 ∧ b = symbolByte n := by
  have hb := b.toNat_lt
  obtain ⟨hn, hsymbol⟩ := Alphabet.symbol_of_value? h
  have hchar : (Char.ofNat b.toNat).toNat = b.toNat := by
    rw [Char.ofNat, dif_pos (.inl (by omega))]
    rfl
  refine ⟨hn, ?_⟩
  rw [symbolByte, hsymbol, hchar, UInt8.ofNat_toNat]

/-- A byte that is read where a symbol has to stand is the byte of one. -/
theorem valueAt_eq_ok {offset n : Nat} {b : UInt8} (h : valueAt offset b = .ok n) :
    n < 64 ∧ b = symbolByte n := by
  unfold valueAt at h
  split at h
  · next m hm =>
    obtain rfl := Except.ok.inj h
    exact byteValue?_eq_some hm
  · exact absurd h (by simp)

/-! ### The bytes of a quad give its symbols back -/

variable {p q r s : Nat}

/-- The bytes of a quad, as numbers. -/
theorem quadBytes_eq (hp : p < 64) (hq : q < 64) (hr : r < 64) (hs : s < 64) :
    ∃ x y z : UInt8, quadBytes p q r s = [x, y, z] ∧ x.toNat = p * 4 + q / 16 ∧
      y.toNat = q % 16 * 16 + r / 4 ∧ z.toNat = r % 4 * 64 + s := by
  refine ⟨_, _, _, rfl, ?_, ?_, ?_⟩
  · rw [UInt8.toNat_ofNat']
    omega
  · rw [UInt8.toNat_ofNat']
    omega
  · rw [UInt8.toNat_ofNat']
    omega

/-- The three bytes of a quad are encoded as its symbols. -/
theorem encodeThree_quadBytes (hp : p < 64) (hq : q < 64) (hr : r < 64) (hs : s < 64) :
    ∃ x y z : UInt8, quadBytes p q r s = [x, y, z] ∧
      encodeThree standard x y z = [p, q, r, s].map standard.symbol := by
  obtain ⟨x, y, z, hbytes, hx, hy, hz⟩ := quadBytes_eq hp hq hr hs
  have hfirst : x.toNat / 4 = p := by omega
  have hsecond : x.toNat % 4 * 16 + y.toNat / 16 = q := by omega
  have hthird : y.toNat % 16 * 4 + z.toNat / 64 = r := by omega
  have hfourth : z.toNat % 64 = s := by omega
  refine ⟨x, y, z, hbytes, ?_⟩
  rw [encodeThree, hfirst, hsecond, hthird, hfourth]
  rfl

/-- Two bytes are encoded as three symbols, if the last of them sets no more bits than are used. -/
theorem encodeTwo_quadBytes (hp : p < 64) (hq : q < 64) (hr : r < 64) (hlow : r % 4 = 0) :
    ∃ x y : UInt8, (quadBytes p q r 0).take 2 = [x, y] ∧
      encodeTwo standard x y = [p, q, r].map standard.symbol := by
  obtain ⟨x, y, z, hbytes, hx, hy, -⟩ := quadBytes_eq hp hq hr (by decide : 0 < 64)
  have hfirst : x.toNat / 4 = p := by omega
  have hsecond : x.toNat % 4 * 16 + y.toNat / 16 = q := by omega
  have hthird : y.toNat % 16 * 4 = r := by omega
  refine ⟨x, y, by rw [hbytes]; rfl, ?_⟩
  rw [encodeTwo, hfirst, hsecond, hthird]
  rfl

/-- One byte is encoded as two symbols, if the last of them sets no more bits than are used. -/
theorem encodeOne_quadBytes (hp : p < 64) (hq : q < 64) (hlow : q % 16 = 0) :
    ∃ x : UInt8, (quadBytes p q 0 0).take 1 = [x] ∧
      encodeOne standard x = [p, q].map standard.symbol := by
  obtain ⟨x, y, z, hbytes, hx, -, -⟩ :=
    quadBytes_eq hp hq (by decide : 0 < 64) (by decide : 0 < 64)
  have hfirst : x.toNat / 4 = p := by omega
  have hsecond : x.toNat % 4 * 16 = q := by omega
  refine ⟨x, by rw [hbytes]; rfl, ?_⟩
  rw [encodeOne, hfirst, hsecond]
  rfl

/-! ### What is read at the end -/

/-- Behind padding nothing but padding is read, and the symbols before it are their numbers. -/
theorem lastSymbols_eq_ok {offset index pads : Nat} {padded : Option Nat} {bs : Bytes}
    {values : List Nat} (h : lastSymbols offset index padded bs = .ok (values, pads)) :
    bs = values.map symbolByte ++ List.replicate pads pad ∧ (∀ n ∈ values, n < 64) ∧
      (padded.isSome → values = []) := by
  induction bs generalizing index padded values pads with
  | nil =>
    obtain ⟨rfl, rfl⟩ := Prod.mk.inj (Except.ok.inj h)
    exact ⟨rfl, by simp, fun _ => rfl⟩
  | cons b bs ih =>
    unfold lastSymbols at h
    split at h
    · next hpad =>
      split at h
      · exact absurd h (by simp)
      -- padding, behind which no value may come
      · simp only [bind_eq_ok, pure_eq_ok, Prod.exists, Prod.mk.injEq] at h
        obtain ⟨values', pads', hrest, rfl, rfl⟩ := h
        obtain ⟨hbs, -, hnone⟩ := ih hrest
        obtain rfl : values' = [] := hnone rfl
        refine ⟨?_, by simp, fun _ => rfl⟩
        rw [hbs, hpad]
        simp [List.replicate_succ]
    · split at h
      · exact absurd h (by simp)
      -- a symbol, so no padding was read before it
      · simp only [bind_eq_ok, pure_eq_ok, Prod.exists, Prod.mk.injEq] at h
        obtain ⟨n, hvalue, values', pads', hrest, rfl, rfl⟩ := h
        obtain ⟨hbs, hlt, -⟩ := ih hrest
        obtain ⟨hn, rfl⟩ := valueAt_eq_ok hvalue
        refine ⟨by rw [hbs]; simp, ?_, by simp⟩
        simpa using ⟨hn, hlt⟩

/-- Symbols and padding as the bytes that the reader sees. -/
theorem encode_symbols_pads {values : List Nat} (hlt : ∀ n ∈ values, n < 64) (pads : Nat) :
    Utf8.encode (values.map standard.symbol ++ List.replicate pads '=') =
      values.map symbolByte ++ List.replicate pads pad := by
  have hpads : Utf8.encode (List.replicate pads '=') = List.replicate pads pad := by
    rw [Utf8.encode, List.flatMap_replicate]
    exact List.flatten_replicate_singleton
  rw [Utf8.encode_append, encode_symbols hlt, hpads]

/-- **The last quad** is nothing, or it has four symbols, or it is filled up with padding behind two
or three. -/
theorem lastQuad_eq_ok {offset : Nat} {bs out : Bytes} (hlength : bs.length ≤ 4)
    (h : lastQuad offset bs = .ok out) : bs = Utf8.encode (encodePadded standard out) := by
  by_cases hnil : bs = []
  · subst hnil
    obtain rfl : [] = out := Except.ok.inj h
    rfl
  simp only [lastQuad, check_eq_ok, bind_eq_ok, Prod.exists] at h
  obtain ⟨values, pads, hsymbols, hfew, hwhole, h⟩ := h
  obtain ⟨hbs, hlt, -⟩ := lastSymbols_eq_ok hsymbols
  have hcount : bs.length = values.length + pads := by rw [hbs]; simp
  have hpos := List.length_pos_iff.mpr hnil
  rw [← encode_symbols_pads hlt] at hbs
  -- so it is one quad, with at least two symbols
  have hquad : values.length + pads = 4 := by omega
  have htwo : 2 ≤ values.length := Nat.not_lt.mp fun hlt => hfew ⟨hnil, hlt⟩
  rcases values with _ | ⟨p, _ | ⟨q, _ | ⟨r, _ | ⟨s, _ | ⟨t, values⟩⟩⟩⟩⟩
  · exact absurd htwo (by simp)
  · exact absurd htwo (by simp)
  -- two symbols, of which the second has no bits behind the byte
  · dsimp only at h
    split at h
    · next hlow =>
      obtain rfl : pads = 2 := by simp at hquad; omega
      obtain ⟨x, hbytes, hsym⟩ := encodeOne_quadBytes (hlt p (by simp)) (hlt q (by simp)) hlow
      obtain rfl := Except.ok.inj h
      rw [hbs, hbytes, encodePadded, hsym]
      rfl
    · exact absurd h (by simp)
  -- three
  · dsimp only at h
    split at h
    · next hlow =>
      obtain rfl : pads = 1 := by simp at hquad; omega
      obtain ⟨x, y, hbytes, hsym⟩ :=
        encodeTwo_quadBytes (hlt p (by simp)) (hlt q (by simp)) (hlt r (by simp)) hlow
      obtain rfl := Except.ok.inj h
      rw [hbs, hbytes, encodePadded, hsym]
      rfl
    · exact absurd h (by simp)
  -- four, and no padding
  · obtain rfl : pads = 0 := by simp at hquad; omega
    obtain ⟨x, y, z, hbytes, hsym⟩ := encodeThree_quadBytes (hlt p (by simp)) (hlt q (by simp))
      (hlt r (by simp)) (hlt s (by simp))
    obtain rfl := Except.ok.inj h
    rw [hbs, hbytes, encodePadded, hsym]
    rfl
  · simp at hquad
    omega

/-! ### Whole texts -/

/-- A quad that is not the last has four symbols and three bytes. -/
theorem quads_eq_ok_cons {offset : Nat} {a b c d e : UInt8} {rest out : Bytes}
    (h : quads offset (a :: b :: c :: d :: e :: rest) = .ok out) :
    ∃ p < 64, ∃ q < 64, ∃ r < 64, ∃ s < 64, ∃ more : Bytes,
      [a, b, c, d] = [p, q, r, s].map symbolByte ∧ quads (offset + 4) (e :: rest) = .ok more ∧
        out = quadBytes p q r s ++ more := by
  simp only [quads, bind_eq_ok, pure_eq_ok] at h
  obtain ⟨p, ha, q, hb, r, hc, s, hd, more, hmore, rfl⟩ := h
  obtain ⟨hp, rfl⟩ := valueAt_eq_ok ha
  obtain ⟨hq, rfl⟩ := valueAt_eq_ok hb
  obtain ⟨hr, rfl⟩ := valueAt_eq_ok hc
  obtain ⟨hs, rfl⟩ := valueAt_eq_ok hd
  exact ⟨p, hp, q, hq, r, hr, s, hs, more, rfl, hmore, rfl⟩

/-- **What is decoded from some place on** is the encoding of what it is decoded to. -/
theorem quads_eq_ok {offset : Nat} {bs out : Bytes} (h : quads offset bs = .ok out) :
    bs = Utf8.encode (encodePadded standard out) := by
  -- quad by quad, as the reader does it
  induction offset, bs using quads.induct generalizing out with
  | case1 offset a b c d e rest ih =>
    obtain ⟨p, hp, q, hq, r, hr, s, hs, more, hsymbols, hmore, rfl⟩ := quads_eq_ok_cons h
    obtain ⟨x, y, z, hbytes, hsym⟩ := encodeThree_quadBytes hp hq hr hs
    have hfour : Utf8.encode ([p, q, r, s].map standard.symbol) = [a, b, c, d] := by
      rw [hsymbols]
      apply encode_symbols
      simp [hp, hq, hr, hs]
    have htext : encodePadded standard (quadBytes p q r s ++ more) =
        [p, q, r, s].map standard.symbol ++ encodePadded standard more := by
      rw [hbytes, ← hsym]
      rfl
    rw [htext, Utf8.encode_append, hfour, ← ih hmore]
    rfl
  | case2 offset last hlast =>
    have hlength : last.length ≤ 4 := by
      rcases last with _ | ⟨a, _ | ⟨b, _ | ⟨c, _ | ⟨d, _ | ⟨e, rest⟩⟩⟩⟩⟩
      · simp
      · simp
      · simp
      · simp
      · simp
      · exact absurd rfl (hlast a b c d e rest)
    rw [quads] at h
    · exact lastQuad_eq_ok hlength h
    · exact hlast

/-- **Nothing is decoded but the encoding of what it is decoded to.** -/
theorem decode_eq_ok_iff {bs out : Bytes} :
    decode bs = .ok out ↔ bs = Utf8.encode (encodePadded standard out) := by
  constructor
  · intro h
    unfold decode at h
    -- the reader looks at the last byte first, but only to find a better fault
    cases hlast : bs.getLast? with
    | none =>
      rw [hlast] at h
      obtain rfl : [] = out := Except.ok.inj h
      exact List.getLast?_eq_none_iff.mp hlast
    | some b =>
      rw [hlast] at h
      simp only at h
      split at h
      · exact absurd h (by simp)
      · exact quads_eq_ok h
  · rintro rfl
    exact decode_encodePadded out

/-- A text is decoded to some bytes exactly if it is their padded encoding. -/
theorem decode_encode_eq_ok_iff {text : List Char} {out : Bytes} :
    decode (Utf8.encode text) = .ok out ↔ text = encodePadded standard out := by
  rw [decode_eq_ok_iff]
  exact Utf8.encode_injective.eq_iff

/-! ### The form -/

/-- **Canonical base64**: whole quads of symbols, of which the last may be filled up with one or two
characters of padding; the bits of the last symbol that belong to no byte are zero. -/
inductive IsCanonical : List Char → Prop
  | nil : IsCanonical []
  | one {p q : Nat} (hp : p < 64) (hq : q < 64) (hlow : q % 16 = 0) :
    IsCanonical [standard.symbol p, standard.symbol q, '=', '=']
  | two {p q r : Nat} (hp : p < 64) (hq : q < 64) (hr : r < 64) (hlow : r % 4 = 0) :
    IsCanonical [standard.symbol p, standard.symbol q, standard.symbol r, '=']
  | three {p q r s : Nat} {rest : List Char} (hp : p < 64) (hq : q < 64) (hr : r < 64) (hs : s < 64)
    (hrest : IsCanonical rest) :
    IsCanonical (standard.symbol p :: standard.symbol q :: standard.symbol r :: standard.symbol s ::
      rest)

/-- **A padded encoding is canonical.** -/
theorem isCanonical_encodePadded (bs : Bytes) : IsCanonical (encodePadded standard bs) := by
  induction bs using encodePadded.induct with
  | case1 => exact .nil
  | case2 x =>
    have hx := x.toNat_lt
    exact .one (by omega) (by omega) (by omega)
  | case3 x y =>
    have hx := x.toNat_lt
    have hy := y.toNat_lt
    exact .two (by omega) (by omega) (by omega) (by omega)
  | case4 x y z rest ih =>
    have hx := x.toNat_lt
    have hy := y.toNat_lt
    have hz := z.toNat_lt
    exact .three (by omega) (by omega) (by omega) (by omega) ih

end TokenForge.Base64
