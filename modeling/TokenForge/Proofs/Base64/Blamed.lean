import TokenForge.Proofs.Base64.Canonical
import TokenForge.Proofs.Number.Digits

/-!
# What faults of base64 blame

A text that is no encoding is refused with a fault, and a fault that names a byte is true of the text:
the byte stands at the offset that the fault gives, and it is no symbol, or it is the last symbol and
has nothing but padding behind it (`Fault.IsTrueOf`). Together with `decode_eq_ok_iff` this says of
every text what the reader makes of it (`decode_accepts_and_blames`).

* `symbols` — the 64 symbols as a text, and `byteValue?_eq_none_iff`, what is none of them;
* `errorsHave_lastQuad`, `errorsHave_quads`, `errorsHave_decode` — the faults of each part of the
  reader;
* `Fault.eq_symbol_of_message`, `Fault.eq_lastSymbol_of_message` — a fault is told by its wording.
-/

namespace TokenForge.Base64

/-! ### The symbols -/

/-- **The 64 symbols**, in the order of the numbers that they stand for. -/
def symbols : String := "ABCDEFGHIJKLMNOPQRSTUVWXYZabcdefghijklmnopqrstuvwxyz0123456789+/"

variable {b : UInt8}

theorem utf8_symbols : utf8 symbols = (List.range 64).map symbolByte := by
  decide +kernel

/-- A byte is that of a symbol if it is that of a number below 64. -/
theorem mem_symbols_iff : b ∈ utf8 symbols ↔ ∃ n < 64, symbolByte n = b := by
  simp [utf8_symbols]

/-- **What stands for no number is no symbol.** -/
theorem byteValue?_eq_none_iff : byteValue? b = none ↔ b ∉ utf8 symbols := by
  rw [mem_symbols_iff]
  constructor
  · rintro hnone ⟨n, hn, rfl⟩
    rw [byteValue?_symbolByte n hn] at hnone
    cases hnone
  · intro hnot
    cases hvalue : byteValue? b with
    | none => rfl
    | some n =>
      obtain ⟨hn, rfl⟩ := byteValue?_eq_some hvalue
      exact absurd ⟨n, hn, rfl⟩ hnot

theorem pad_not_mem_symbols : pad ∉ utf8 symbols := byteValue?_eq_none_iff.mp rfl

/-! ### Faults that are true -/

/-- **Whether a fault is true of a text**, as far as it names a byte. -/
def Fault.IsTrueOf (text : Bytes) : Fault → Prop
  | .symbol b i => text[i]? = some b ∧ b ∉ utf8 symbols
  | .lastSymbol b i => text[i]? = some b ∧ b ∈ utf8 symbols ∧ ∀ c ∈ text.drop (i + 1), c = pad
  | .length _ | .padding => True

variable {text bs : Bytes} {offset index : Nat}

/-- A byte of what is left from some place on, by its offset in the whole text. -/
theorem getElem?_of_drop (h : text.drop offset = bs) (k : Nat) : text[offset + k]? = bs[k]? := by
  rw [← h, List.getElem?_drop]

/-- A byte that has no value is blamed where it stands. -/
theorem errorsHave_valueAt (h : text[offset]? = some b) :
    ErrorsHave (Fault.IsTrueOf text) (valueAt offset b) := by
  unfold valueAt
  split
  · exact errorsHave_ok _ _
  · next hnone => exact errorsHave_error ⟨h, byteValue?_eq_none_iff.mp hnone⟩

/-- **Symbols at the end.** Padding that comes too early is blamed itself, and so is padding with
something else behind it. -/
theorem errorsHave_lastSymbols {padded : Option Nat} (h : text.drop (offset + index) = bs)
    (hpadded : ∀ first ∈ padded, text[offset + first]? = some pad) :
    ErrorsHave (Fault.IsTrueOf text) (lastSymbols offset index padded bs) := by
  induction bs generalizing index padded with
  | nil => exact errorsHave_ok _ _
  | cons b rest ih =>
    have hhere : text[offset + index]? = some b := getElem?_of_drop h 0
    have hrest : text.drop (offset + (index + 1)) = rest := by
      rw [← Nat.add_assoc, ← List.drop_drop, h]
      rfl
    unfold lastSymbols
    split
    · next hpad =>
      subst hpad
      split
      · exact errorsHave_error ⟨hhere, pad_not_mem_symbols⟩
      · refine (ih hrest ?_).bind fun _ => errorsHave_ok _ _
        -- where padding began before, or here
        rintro _ ⟨⟩
        cases padded with
        | none => exact hhere
        | some first => exact hpadded first rfl
    · split
      · next first => exact errorsHave_error ⟨hpadded first rfl, pad_not_mem_symbols⟩
      · refine (errorsHave_valueAt hhere).bind fun _ => ?_
        exact (ih hrest (by simp)).bind fun _ => errorsHave_ok _ _

/-- The symbol before padding is the last one. -/
theorem isTrueOf_lastSymbol (values : List Nat) {n pads : Nat} (hn : n < 64)
    (h : text.drop offset = (values ++ [n]).map symbolByte ++ List.replicate pads pad) :
    (Fault.lastSymbol (symbolByte n) (offset + values.length)).IsTrueOf text := by
  have hdrop : text.drop (offset + values.length) =
      symbolByte n :: List.replicate pads pad := by
    rw [← List.drop_drop, h]
    simp
  refine ⟨?_, mem_symbols_iff.mpr ⟨n, hn, rfl⟩, ?_⟩
  · rw [← Nat.add_zero (offset + values.length), getElem?_of_drop hdrop]
    rfl
  · rw [← List.drop_drop, hdrop]
    intro c hc
    exact List.eq_of_mem_replicate hc

/-- **The last quad.** -/
theorem errorsHave_lastQuad (h : text.drop offset = bs) :
    ErrorsHave (Fault.IsTrueOf text) (lastQuad offset bs) := by
  have hsymbols : ErrorsHave (Fault.IsTrueOf text) (lastSymbols offset 0 none bs) :=
    errorsHave_lastSymbols h (by simp)
  unfold lastQuad
  -- a fault of the symbols is passed on; behind them the number of symbols and what the last of
  -- them sets behind the last byte are left to blame
  cases hread : lastSymbols offset 0 none bs with
  | error fault => exact errorsHave_error (hsymbols fault hread)
  | ok found =>
    obtain ⟨values, pads⟩ := found
    obtain ⟨hbs, hlt, -⟩ := lastSymbols_eq_ok hread
    refine ErrorsHave.check trivial (ErrorsHave.check trivial ?_)
    rw [hbs] at h
    split
    · next p q =>
      have hblame := isTrueOf_lastSymbol [p] (hlt q (by simp)) h
      split
      · exact errorsHave_ok _ _
      · rw [hbs]
        exact errorsHave_error hblame
    · next p q r =>
      have hblame := isTrueOf_lastSymbol [p, q] (hlt r (by simp)) h
      split
      · exact errorsHave_ok _ _
      · rw [hbs]
        exact errorsHave_error hblame
    · exact errorsHave_ok _ _
    · exact errorsHave_ok _ _

/-- **All quads from some place on.** -/
theorem errorsHave_quads (h : text.drop offset = bs) :
    ErrorsHave (Fault.IsTrueOf text) (quads offset bs) := by
  -- quad by quad, as the reader does it
  induction offset, bs using quads.induct with
  | case1 offset a b c d e rest ih =>
    have hrest : text.drop (offset + 4) = e :: rest := by
      rw [← List.drop_drop, h]
      rfl
    rw [quads]
    refine (errorsHave_valueAt (getElem?_of_drop h 0)).bind fun _ => ?_
    refine (errorsHave_valueAt (getElem?_of_drop h 1)).bind fun _ => ?_
    refine (errorsHave_valueAt (getElem?_of_drop h 2)).bind fun _ => ?_
    refine (errorsHave_valueAt (getElem?_of_drop h 3)).bind fun _ => ?_
    exact (ih hrest).bind fun _ => errorsHave_ok _ _
  | case2 offset last hlast =>
    rw [quads]
    · exact errorsHave_lastQuad h
    · exact hlast

/-- **Every fault is true of the text** that it is found in. -/
theorem errorsHave_decode (text : Bytes) : ErrorsHave (Fault.IsTrueOf text) (decode text) := by
  unfold decode
  split
  · next b hlast =>
    split
    · -- the last byte is blamed if it is left over and no symbol
      next hbad =>
      have hbyte : text[text.length - 1]? = some b := by rw [← List.getLast?_eq_getElem?, hlast]
      exact errorsHave_error ⟨hbyte, byteValue?_eq_none_iff.mp hbad.2.2⟩
    · exact errorsHave_quads List.drop_zero
  · exact errorsHave_ok _ _

/-! ### Wordings -/

section Wording

variable {fault : Fault} {byte place : Nat}

/-- What stands between the numbers of a wording, and begins with no digit. -/
def between : List Char := ", offset ".toList

/-- The two numbers in a wording are told by it. -/
theorem numbers_of_wording {m n : Nat}
    (h : natDigits m ++ (between ++ (natDigits n ++ ".".toList)) =
      natDigits byte ++ (between ++ (natDigits place ++ ".".toList))) :
    m = byte ∧ n = place := by
  -- neither what comes between the numbers nor the full stop goes on with a digit
  have hbetween (s : List Char) : ∀ c ∈ (between ++ s).head?, c.isDigit = false := by
    rintro _ ⟨⟩
    rfl
  have hstop : ∀ c ∈ ".".toList.head?, c.isDigit = false := by
    rintro _ ⟨⟩
    rfl
  obtain ⟨hbyte, hrest⟩ := natDigits_append_inj (hbetween _) (hbetween _) h
  have hplace := natDigits_append_inj hstop hstop (List.append_cancel_left hrest)
  exact ⟨hbyte, hplace.1⟩

/-- **A fault that is worded as a bad symbol** is one. -/
theorem Fault.eq_symbol_of_message
    (h : fault.message =
      "Invalid symbol " ++ toString byte ++ ", offset " ++ toString place ++ ".") :
    ∃ b : UInt8, b.toNat = byte ∧ fault = .symbol b place := by
  unfold message at h
  have hchars := congrArg String.toList h
  cases fault with
  | symbol b i =>
    simp only [String.toList_append, toList_toString, List.append_assoc] at hchars
    obtain ⟨hb, rfl⟩ := numbers_of_wording (List.append_cancel_left hchars)
    exact ⟨b, hb, rfl⟩
  | length n => simp at hchars
  | lastSymbol b i => simp at hchars
  | padding => simp at hchars

/-- **A fault that is worded as a bad last symbol** is one. -/
theorem Fault.eq_lastSymbol_of_message
    (h : fault.message =
      "Invalid last symbol " ++ toString byte ++ ", offset " ++ toString place ++ ".") :
    ∃ b : UInt8, b.toNat = byte ∧ fault = .lastSymbol b place := by
  unfold message at h
  have hchars := congrArg String.toList h
  cases fault with
  | symbol b i => simp at hchars
  | length n => simp at hchars
  | lastSymbol b i =>
    simp only [String.toList_append, toList_toString, List.append_assoc] at hchars
    obtain ⟨hb, rfl⟩ := numbers_of_wording (List.append_cancel_left hchars)
    exact ⟨b, hb, rfl⟩
  | padding => simp at hchars

end Wording

/-- **What the reader makes of a text.** It decodes the padded encoding of some bytes to them and
nothing else to anything. A fault that names a symbol and an offset names a byte that stands there:
one that is no symbol, or, if it is called the last symbol, the last of all symbols, with nothing but
padding behind it. -/
theorem decode_accepts_and_blames (text : List Char) :
    (∀ bytes, decode (Utf8.encode text) = .ok bytes ↔ text = encodePadded standard bytes) ∧
    ∀ fault, decode (Utf8.encode text) = .error fault → ∀ byte place : Nat,
      (fault.message =
          "Invalid symbol " ++ toString byte ++ ", offset " ++ toString place ++ "." →
        ∃ h : place < (Utf8.encode text).length,
          (Utf8.encode text)[place].toNat = byte ∧ (Utf8.encode text)[place] ∉ utf8 symbols) ∧
      (fault.message =
          "Invalid last symbol " ++ toString byte ++ ", offset " ++ toString place ++ "." →
        ∃ h : place < (Utf8.encode text).length,
          (Utf8.encode text)[place].toNat = byte ∧ (Utf8.encode text)[place] ∈ utf8 symbols ∧
            ∀ c ∈ (Utf8.encode text).drop (place + 1), c = pad) := by
  refine ⟨fun bytes => decode_encode_eq_ok_iff, fun fault hfault byte place => ⟨?_, ?_⟩⟩
  · intro hmessage
    obtain ⟨b, rfl, rfl⟩ := Fault.eq_symbol_of_message hmessage
    obtain ⟨hbyte, hnot⟩ := errorsHave_decode _ _ hfault
    obtain ⟨hplace, hb⟩ := List.getElem?_eq_some_iff.mp hbyte
    rw [← hb] at hnot ⊢
    exact ⟨hplace, rfl, hnot⟩
  · intro hmessage
    obtain ⟨b, rfl, rfl⟩ := Fault.eq_lastSymbol_of_message hmessage
    obtain ⟨hbyte, hmem, hbehind⟩ := errorsHave_decode _ _ hfault
    obtain ⟨hplace, hb⟩ := List.getElem?_eq_some_iff.mp hbyte
    rw [← hb] at hmem ⊢
    exact ⟨hplace, rfl, hmem, hbehind⟩

/-- A text whose last symbol sets bits behind the last byte, and one with a symbol of the other
alphabet in it. -/
theorem decode_accepts_and_blames_strays :
    (decode (Utf8.encode "QUJDRB==".toList) = .error (.lastSymbol 66 5) ∧
      ∃ h : 5 < (Utf8.encode "QUJDRB==".toList).length,
        (Utf8.encode "QUJDRB==".toList)[5].toNat = 66 ∧
          ∀ c ∈ (Utf8.encode "QUJDRB==".toList).drop 6, c = pad) ∧
    decode (Utf8.encode "QU-D".toList) = .error (.symbol 45 2) ∧
      ∃ h : 2 < (Utf8.encode "QU-D".toList).length,
        (Utf8.encode "QU-D".toList)[2] ∉ utf8 symbols := by
  have hlast : decode (Utf8.encode "QUJDRB==".toList) = .error (.lastSymbol 66 5) := rfl
  have hstray : decode (Utf8.encode "QU-D".toList) = .error (.symbol 45 2) := rfl
  obtain ⟨hplace, hbyte, -, hbehind⟩ :=
    ((decode_accepts_and_blames "QUJDRB==".toList).2 _ hlast 66 5).2 rfl
  obtain ⟨hinside, -, hnot⟩ := ((decode_accepts_and_blames "QU-D".toList).2 _ hstray 45 2).1 rfl
  exact ⟨⟨hlast, hplace, hbyte, hbehind⟩, hstray, hinside, hnot⟩

end TokenForge.Base64
