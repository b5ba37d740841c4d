import TokenForge.Base64.Padded
import TokenForge.Proofs.Base64.Symbols

/-!
# Padded base64 read back

The reader of armored data undoes the encoder: whatever the bytes are, their padded encoding in the
standard alphabet is decoded to them (`decode_encodePadded`). All quads but the last are read by
`quads`, and the three forms of the last one, with two, one and no padding characters, by
`lastQuad`.

* `symbolByte` — a symbol as the byte that the reader sees;
* `quadBytes_three` and its cases for less bytes — a quad put together again.
-/

namespace TokenForge.Base64

/-! ### Symbols as bytes -/

/-- The byte of the symbol for a number. -/
def symbolByte (n : Nat) : UInt8 := UInt8.ofNat (standard.symbol n).toNat

/-- A symbol is one byte in a text. -/
theorem utf8EncodeChar_symbol :
    ∀ n < 64, String.utf8EncodeChar (standard.symbol n) = [symbolByte n] := by
  decide

/-- The reader finds the number of a symbol. -/
theorem byteValue?_symbolByte : ∀ n < 64, byteValue? (symbolByte n) = some n := by
  decide

theorem symbolByte_ne_pad : ∀ n < 64, symbolByte n ≠ pad := by
  decide

theorem valueAt_symbolByte {n : Nat} (hn : n < 64) (offset : Nat) :
    valueAt offset (symbolByte n) = .ok n := by
  rw [valueAt, byteValue?_symbolByte n hn]

/-- The bytes of some symbols. -/
theorem encode_symbols {ns : List Nat} (hns : ∀ n ∈ ns, n < 64) :
    Utf8.encode (ns.map standard.symbol) = ns.map symbolByte := by
  induction ns with
  | nil => rfl
  | cons n ns ih =>
    have htail := ih fun m hm => hns m (List.mem_cons_of_mem n hm)
    have hhead := utf8EncodeChar_symbol n (hns n List.mem_cons_self)
    rw [Utf8.encode] at htail
    rw [List.map_cons, List.map_cons, Utf8.encode, List.flatMap_cons, hhead, htail]
    rfl

/-! ### Quads put together again -/

/-- **Four numbers made of three bytes make the bytes again.** -/
theorem quadBytes_three (x y z : UInt8) :
    quadBytes (x.toNat / 4) (x.toNat % 4 * 16 + y.toNat / 16) (y.toNat % 16 * 4 + z.toNat / 64)
      (z.toNat % 64) = [x, y, z] := by
  have hx := x.toNat_lt
  have hy := y.toNat_lt
  have hz := z.toNat_lt
  -- the four numbers make one of 24 bits, which the three bytes make as well
  have hall : ((x.toNat / 4 * 64 + (x.toNat % 4 * 16 + y.toNat / 16)) * 64 +
      (y.toNat % 16 * 4 + z.toNat / 64)) * 64 + z.toNat % 64 =
      x.toNat * 65536 + y.toNat * 256 + z.toNat := by omega
  have hfirst : (x.toNat * 65536 + y.toNat * 256 + z.toNat) / 65536 % 256 = x.toNat := by omega
  have hsecond : (x.toNat * 65536 + y.toNat * 256 + z.toNat) / 256 % 256 = y.toNat := by omega
  have hthird : (x.toNat * 65536 + y.toNat * 256 + z.toNat) % 256 = z.toNat := by omega
  rw [quadBytes, hall, threeBytes, hfirst, hsecond, hthird]
  simp only [UInt8.ofNat_toNat]

/-- Three numbers made of two bytes, with the zero bits that fill up the third. -/
theorem quadBytes_two (x y : UInt8) :
    (quadBytes (x.toNat / 4) (x.toNat % 4 * 16 + y.toNat / 16) (y.toNat % 16 * 4) 0).take 2 =
      [x, y] := by
  -- as if a third byte, zero, had been encoded with them
  have hquad := quadBytes_three x y 0
  simp only [UInt8.toNat_zero, Nat.zero_div, Nat.add_zero, Nat.zero_mod] at hquad
  rw [hquad]
  rfl

/-- Two numbers made of one byte, with the zero bits that fill up the second. -/
theorem quadBytes_one (x : UInt8) :
    (quadBytes (x.toNat / 4) (x.toNat % 4 * 16) 0 0).take 1 = [x] := by
  have hquad := quadBytes_three x 0 0
  simp only [UInt8.toNat_zero, Nat.zero_div, Nat.add_zero, Nat.zero_mod, Nat.zero_mul] at hquad
  rw [hquad]
  rfl

/-! ### The last quad -/

variable {p q r s : Nat} (offset : Nat)

/-- A symbol at the front of the last ones is read as its number. -/
theorem lastSymbols_symbolByte (hp : p < 64) (index : Nat) (rest : Bytes) :
    lastSymbols offset index none (symbolByte p :: rest) =
      (lastSymbols offset (index + 1) none rest).map fun found => (p :: found.1, found.2) := by
  rw [lastSymbols, if_neg (symbolByte_ne_pad p hp), valueAt_symbolByte hp]
  cases lastSymbols offset (index + 1) none rest <;> rfl

/-- A quad of two symbols holds one byte. -/
theorem lastQuad_two (hp : p < 64) (hq : q < 64) (hlow : q % 16 = 0) :
    lastQuad offset [symbolByte p, symbolByte q, pad, pad] =
      .ok ((quadBytes p q 0 0).take 1) := by
  have hsymbols : lastSymbols offset 0 none [symbolByte p, symbolByte q, pad, pad] =
      .ok ([p, q], 2) := by
    rw [lastSymbols_symbolByte offset hp, lastSymbols_symbolByte offset hq]
    rfl
  rw [lastQuad, hsymbols]
  simp [bind, Except.bind, pure, Except.pure, hlow]

/-- A quad of three symbols holds two bytes. -/
theorem lastQuad_three (hp : p < 64) (hq : q < 64) (hr : r < 64) (hlow : r % 4 = 0) :
    lastQuad offset [symbolByte p, symbolByte q, symbolByte r, pad] =
      .ok ((quadBytes p q r 0).take 2) := by
  have hsymbols : lastSymbols offset 0 none [symbolByte p, symbolByte q, symbolByte r, pad] =
      .ok ([p, q, r], 1) := by
    rw [lastSymbols_symbolByte offset hp, lastSymbols_symbolByte offset hq,
      lastSymbols_symbolByte offset hr]
    rfl
  rw [lastQuad, hsymbols]
  simp [bind, Except.bind, pure, Except.pure, hlow]

/-- A quad of four symbols holds three bytes. -/
theorem lastQuad_four (hp : p < 64) (hq : q < 64) (hr : r < 64) (hs : s < 64) :
    lastQuad offset [symbolByte p, symbolByte q, symbolByte r, symbolByte s] =
      .ok (quadBytes p q r s) := by
  have hsymbols : lastSymbols offset 0 none
      [symbolByte p, symbolByte q, symbolByte r, symbolByte s] = .ok ([p, q, r, s], 0) := by
    rw [lastSymbols_symbolByte offset hp, lastSymbols_symbolByte offset hq,
      lastSymbols_symbolByte offset hr, lastSymbols_symbolByte offset hs]
    rfl
  rw [lastQuad, hsymbols]
  simp [bind, Except.bind, pure, Except.pure]

/-- A quad that is not the last is read as its three bytes. -/
theorem quads_cons (hp : p < 64) (hq : q < 64) (hr : r < 64) (hs : s < 64) {rest : Bytes}
    (hrest : rest ≠ []) :
    quads offset ([symbolByte p, symbolByte q, symbolByte r, symbolByte s] ++ rest) =
      (quads (offset + 4) rest).map fun bytes => quadBytes p q r s ++ bytes := by
  obtain ⟨b, bs, rfl⟩ := List.exists_cons_of_ne_nil hrest
  -- `quads` asks for a fifth byte to know that a quad is not the last
  change quads offset (_ :: _ :: _ :: _ :: b :: bs) = _
  rw [quads, valueAt_symbolByte hp, valueAt_symbolByte hq, valueAt_symbolByte hr,
    valueAt_symbolByte hs]
  cases quads (offset + 4) (b :: bs) <;> rfl

/-! ### Whole texts -/

/-- The symbols of three bytes, as the reader sees them. -/
theorem encode_encodeThree (x y z : UInt8) :
    Utf8.encode (encodeThree standard x y z) =
      [symbolByte (x.toNat / 4), symbolByte (x.toNat % 4 * 16 + y.toNat / 16),
        symbolByte (y.toNat % 16 * 4 + z.toNat / 64), symbolByte (z.toNat % 64)] := by
  have hx := x.toNat_lt
  have hy := y.toNat_lt
  have hz := z.toNat_lt
  apply @encode_symbols [x.toNat / 4, x.toNat % 4 * 16 + y.toNat / 16,
    y.toNat % 16 * 4 + z.toNat / 64, z.toNat % 64]
  simp only [List.forall_mem_cons, List.not_mem_nil, false_imp_iff, implies_true, and_true]
  omega

/-- The symbols of two bytes and one character of padding, as the reader sees them. -/
theorem encode_encodeTwo (x y : UInt8) :
    Utf8.encode (encodeTwo standard x y ++ ['=']) =
      [symbolByte (x.toNat / 4), symbolByte (x.toNat % 4 * 16 + y.toNat / 16),
        symbolByte (y.toNat % 16 * 4), pad] := by
  have hx := x.toNat_lt
  have hy := y.toNat_lt
  have hsymbols : Utf8.encode (encodeTwo standard x y) = _ :=
    @encode_symbols [x.toNat / 4, x.toNat % 4 * 16 + y.toNat / 16, y.toNat % 16 * 4] (by
      simp only [List.forall_mem_cons, List.not_mem_nil, false_imp_iff, implies_true, and_true]
      omega)
  rw [Utf8.encode_append, hsymbols]
  rfl

/-- The symbols of one byte and two characters of padding, as the reader sees them. -/
theorem encode_encodeOne (x : UInt8) :
    Utf8.encode (encodeOne standard x ++ ['=', '=']) =
      [symbolByte (x.toNat / 4), symbolByte (x.toNat % 4 * 16), pad, pad] := by
  have hx := x.toNat_lt
  have hsymbols : Utf8.encode (encodeOne standard x) = _ :=
    @encode_symbols [x.toNat / 4, x.toNat % 4 * 16] (by
      simp only [List.forall_mem_cons, List.not_mem_nil, false_imp_iff, implies_true, and_true]
      omega)
  rw [Utf8.encode_append, hsymbols]
  rfl

/-- **Whole quads.** A padded encoding is as long as the quads it is made of. -/
theorem length_encode_encodePadded (bs : Bytes) :
    (Utf8.encode (encodePadded standard bs)).length = 4 * ((bs.length + 2) / 3) := by
  induction bs using encodePadded.induct with
  | case1 => rfl
  | case2 x =>
    rw [encodePadded, encode_encodeOne]
    simp
  | case3 x y =>
    rw [encodePadded, encode_encodeTwo]
    simp
  | case4 x y z rest ih =>
    rw [encodePadded, Utf8.encode_append, encode_encodeThree, List.length_append, ih]
    simp only [List.length_cons, List.length_nil]
    omega

/-- The quads of an encoding are read one after another, wherever it begins. -/
theorem quads_encodePadded {bs : Bytes} (hbs : bs ≠ []) (offset : Nat) :
    quads offset (Utf8.encode (encodePadded standard bs)) = .ok bs := by
  -- three bytes at a time, as the encoder does it: up to three are left for the last quad
  induction bs using encodePadded.induct generalizing offset with
  | case1 => exact absurd rfl hbs
  | case2 x =>
    have hx := x.toNat_lt
    rw [encodePadded, encode_encodeOne]
    refine (lastQuad_two offset (by omega) (by omega) (by omega)).trans ?_
    rw [quadBytes_one]
  | case3 x y =>
    have hx := x.toNat_lt
    have hy := y.toNat_lt
    rw [encodePadded, encode_encodeTwo]
    refine (lastQuad_three offset (by omega) (by omega) (by omega) (by omega)).trans ?_
    rw [quadBytes_two]
  | case4 x y z rest ih =>
    have hx := x.toNat_lt
    have hy := y.toNat_lt
    have hz := z.toNat_lt
    rw [encodePadded, Utf8.encode_append, encode_encodeThree]
    by_cases hrest : rest = []
    -- three bytes fill the last quad
    · subst hrest
      refine (lastQuad_four offset (by omega) (by omega) (by omega) (by omega)).trans ?_
      rw [quadBytes_three]
    -- otherwise another quad follows
    · have hne : Utf8.encode (encodePadded standard rest) ≠ [] := by
        have hpos := List.length_pos_iff.mpr hrest
        rw [← List.length_pos_iff, length_encode_encodePadded]
        omega
      rw [quads_cons offset (by omega) (by omega) (by omega) (by omega) hne, ih hrest,
        quadBytes_three]
      rfl

/-- **The reader undoes the encoder**: a padded encoding is decoded to the bytes it was made of. -/
theorem decode_encodePadded (bs : Bytes) :
    decode (Utf8.encode (encodePadded standard bs)) = .ok bs := by
  by_cases hbs : bs = []
  · subst hbs
    rfl
  -- the length of whole quads is none for which the reader looks at the last byte first
  · have hlength : (Utf8.encode (encodePadded standard bs)).length % 4 ≠ 1 := by
      rw [length_encode_encodePadded]
      omega
    unfold decode
    cases hlast : (Utf8.encode (encodePadded standard bs)).getLast? with
    | none =>
      have hquads := quads_encodePadded hbs 0
      rw [List.getLast?_eq_none_iff.mp hlast] at hquads
      exact absurd (Except.ok.inj hquads).symm hbs
    | some b => simp only [hlength, false_and, if_false, quads_encodePadded hbs 0]

end TokenForge.Base64
