import TokenForge.Proofs.Base64.Padded

/-!
# Base64 without padding

What is encoded without padding is decoded to what it was (`decodeUnpadded?_encode`), in every
alphabet whose symbols stand for one number each (`Alphabet.IsReadable`).
-/

namespace TokenForge.Base64

/-- **An alphabet that can be read**: the symbol for a number stands for that number only. -/
def Alphabet.IsReadable (a : Alphabet) : Prop := ∀ n < 64, a.value? (a.symbol n) = some n

theorem isReadable_urlSafe : urlSafe.IsReadable := by
  unfold Alphabet.IsReadable
  decide

variable {a : Alphabet}

/-- **The encoding is undone.** -/
theorem decodeUnpadded?_encode (ha : a.IsReadable) (bs : Bytes) :
    decodeUnpadded? a (encode a bs) = some bs := by
  -- three bytes at a time, as the encoder does it
  induction bs using encode.induct with
  | case1 => rfl
  | case2 x =>
    have hx := x.toNat_lt
    -- no bit is set behind the one byte
    have hlow : x.toNat % 4 * 16 % 16 = 0 := by omega
    rw [encode, encodeOne, decodeUnpadded?, ha _ (by omega), ha _ (by omega)]
    simp [hlow, quadBytes_one]
  | case3 x y =>
    have hx := x.toNat_lt
    have hy := y.toNat_lt
    -- nor behind two
    have hlow : y.toNat % 16 * 4 % 4 = 0 := by omega
    rw [encode, encodeTwo, decodeUnpadded?, ha _ (by omega), ha _ (by omega), ha _ (by omega)]
    simp [hlow, quadBytes_two]
  | case4 x y z rest ih =>
    have hx := x.toNat_lt
    have hy := y.toNat_lt
    have hz := z.toNat_lt
    rw [encode, encodeThree]
    simp only [List.cons_append, List.nil_append]
    rw [decodeUnpadded?, ha _ (by omega), ha _ (by omega), ha _ (by omega), ha _ (by omega), ih]
    simp [quadBytes_three]

end TokenForge.Base64
