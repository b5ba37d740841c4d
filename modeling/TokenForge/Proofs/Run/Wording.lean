import Mathlib.Algebra.GroupWithZero.Nat
import TokenForge.Key.Signing
import TokenForge.Proofs.Except
import TokenForge.Proofs.Pem.Verbatim
import TokenForge.Proofs.Text.Plain
import TokenForge.Token.Certificate
import TokenForge.Token.Payload

/-!
# How faults are worded

The wording of a fault is made of fixed texts, numbers and names of DER types, which break no line;
what it quotes of a file may. Only labels that differ are quoted as they are: a line among the
headers is one line, and all else is counted or named.

* `lineFeeds` — how often a text breaks its line;
* `Key.errorsHave_read` — why a text has no key;
* `Pem.Lenient.Fault.quoted`, `Pem.Lenient.errorsHave_decode` — why a text has no certificate.
-/

namespace TokenForge

/-- How often a text breaks its line. -/
def lineFeeds (text : String) : Nat := text.toList.count '\n'

variable {a b text : String}

theorem lineFeeds_append (a b : String) : lineFeeds (a ++ b) = lineFeeds a + lineFeeds b := by
  rw [lineFeeds, String.toList_append, List.count_append]
  rfl

/-- A text is one line if it has no line feed. -/
theorem lineFeeds_eq_zero_iff : lineFeeds text = 0 ↔ '\n' ∉ text.toList := List.count_eq_zero

theorem lineFeeds_of_isPlain (h : Text.IsPlain text.toList) : lineFeeds text = 0 :=
  lineFeeds_eq_zero_iff.mpr h.lf_not_mem

theorem lineFeeds_toString (n : Nat) : lineFeeds (toString n) = 0 := by
  refine lineFeeds_of_isPlain ?_
  rw [Nat.toString_eq_ofList_toDigits, String.toList_ofList]
  exact Text.isPlain_natDigits n

/-! ### Faults that quote nothing -/

/-- What is wrong with JSON is told by a cause and a place. -/
theorem Json.Fault.lineFeeds_message (fault : Json.Fault) : lineFeeds fault.message = 0 := by
  have hcause : lineFeeds fault.cause.message = 0 := by cases fault.cause <;> decide
  have hplace : lineFeeds " at line " + lineFeeds " column " = 0 := by decide
  simp only [Json.Fault.message, lineFeeds_append, lineFeeds_toString, hcause]
  omega

/-- What is wrong with base64 is told in numbers. -/
theorem Base64.Fault.lineFeeds_message (fault : Base64.Fault) : lineFeeds fault.message = 0 := by
  unfold Base64.Fault.message
  cases fault <;> simp only [lineFeeds_append, lineFeeds_toString] <;> decide

namespace Der

/-- A tag is told by its name, or by its class and number. -/
theorem Tag.lineFeeds_shown (tag : Tag) : lineFeeds tag.shown = 0 := by
  cases tag with
  | universal type => cases type <;> decide
  | other cls isConstructed number =>
    unfold Tag.shown
    simp only [lineFeeds_append, lineFeeds_toString]
    cases cls <;> cases isConstructed <;> decide

/-- A byte is told by its two digits. -/
theorem lineFeeds_hexByte (b : UInt8) : lineFeeds (hexByte b) = 0 := by
  have hdigits : ∀ n < 16, Nat.digitChar n ≠ '\n' := by decide
  have hb := b.toNat_lt
  have hhigh := hdigits (b.toNat / 16) (by omega)
  have hlow := hdigits (b.toNat % 16) (by omega)
  simp [lineFeeds, hexByte, hhigh, hlow]

/-- **What is wrong with DER** is told by tags, bytes and numbers. -/
theorem Kind.lineFeeds_message (kind : Kind) : lineFeeds kind.message = 0 := by
  unfold Kind.message
  cases kind with
  | indefiniteLength | badIdentifier | overflow | tagNumber => decide
  | unexpectedTag expected actual =>
    cases expected <;> simp only [lineFeeds_append, Tag.lineFeeds_shown] <;> decide
  -- in every other kind the fixed text holds one tag, byte or number at most
  | _ =>
    simp only [lineFeeds_append, lineFeeds_toString, Tag.lineFeeds_shown, lineFeeds_hexByte]
    decide

/-- What is wrong with DER is told on one line, with its place behind it. -/
theorem Fault.lineFeeds_message (fault : Fault) : lineFeeds fault.message = 0 := by
  unfold Fault.message
  split
  · simp only [lineFeeds_append, lineFeeds_toString, Kind.lineFeeds_message]
    decide
  · exact Kind.lineFeeds_message fault.kind

end Der

/-! ### Armor and keys -/

namespace Pem.Strict

/-- Lines that are not as they should be are refused on one line, and blaming headers for it takes
no more. -/
theorem errorsHave_unwrap (text lines : List Char) :
    ErrorsHave (fun fault => lineFeeds (blameHeaders text fault).message = 0) (unwrap lines) := by
  -- the fault that blames headers has a wording of its own
  have hblame (fault : Fault) (h : lineFeeds fault.message = 0) :
      lineFeeds (blameHeaders text fault).message = 0 := by
    unfold blameHeaders
    split
    · decide
    · exact h
  unfold unwrap
  split
  · exact errorsHave_error (hblame _ (by decide))
  · exact errorsHave_error (hblame _ (by decide))
  · exact errorsHave_ok _ _

/-- **Why a text is not read strictly** is said without a word of it. -/
theorem errorsHave_decode (text : List Char) :
    ErrorsHave (fun fault => lineFeeds fault.message = 0) (decode text) := by
  unfold decode
  -- the four parts of the frame, of which each may be missing, and then the base64
  split
  case h_2 => exact errorsHave_error (by decide)
  split
  case h_2 => exact errorsHave_error (by decide)
  split
  case h_2 => exact errorsHave_error (by decide)
  split
  case h_2 => exact errorsHave_error (by decide)
  exact (errorsHave_unwrap text _).mapError.bind fun _ => errorsHave_ok _ _

end Pem.Strict

namespace Key

/-- A fault that is worded on one line. -/
def Fault.IsOneLine (fault : Fault) : Prop := lineFeeds fault.message = 0

instance (fault : Fault) : Decidable fault.IsOneLine := inferInstanceAs (Decidable (_ = _))

/-- A key whose DER is wrong is refused on one line. -/
theorem Fault.isOneLine_structure (fault : Der.Fault) : (Fault.structure fault).IsOneLine := by
  change lineFeeds ("PKCS#8 ASN.1 error: " ++ fault.message) = 0
  rw [lineFeeds_append, Der.Fault.lineFeeds_message]
  decide

/-- A key with wrong parameters is refused on one line. -/
theorem Fault.isOneLine_parameters (fault : Der.Fault) : (Fault.parameters fault).IsOneLine := by
  change lineFeeds ("public key error: ASN.1 error: " ++ fault.message) = 0
  rw [lineFeeds_append, Der.Fault.lineFeeds_message]
  decide

/-- A key is refused on one line if its armor is. -/
theorem Fault.isOneLine_armor {fault : Pem.Strict.Fault} (h : lineFeeds fault.message = 0) :
    (Fault.armor fault).IsOneLine := by
  change lineFeeds ("PKCS#8 ASN.1 error: PEM error: " ++ fault.message) = 0
  rw [lineFeeds_append, h]
  decide

/-- The parameters of an algorithm are missing, or wrong in their DER. -/
theorem errorsHave_parametersIdentifier (parameters : Option (Der.Tag × Bytes)) :
    ErrorsHave Fault.IsOneLine (parametersIdentifier parameters) := by
  unfold parametersIdentifier
  split
  · exact errorsHave_error (by decide)
  · split_ifs
    · exact errorsHave_error (Fault.isOneLine_parameters _)
    · exact errorsHave_ok _ _
    · exact errorsHave_error (Fault.isOneLine_parameters _)

/-- What is found wrong with DER is worded on one line. -/
theorem errorsHave_structure {α : Type} (x : Except Der.Fault α) :
    ErrorsHave Fault.IsOneLine (x.mapError .structure) :=
  ErrorsHave.mapError fun fault _ => Fault.isOneLine_structure fault

/-- **A key in its envelope** is refused for its algorithm, its curve or its structure. -/
theorem Envelope.errorsHave_signing (e : Envelope) : ErrorsHave Fault.IsOneLine e.signing := by
  -- first the algorithm, then the curve, and then what is inside
  refine .check (by decide) ?_
  refine (errorsHave_parametersIdentifier e.parameters).bind fun found => ?_
  refine .check (by decide) ?_
  exact (errorsHave_structure _).bind fun key => errorsHave_structure _

/-- A text with a key in an envelope is refused for its armor, its label or its structure. -/
theorem errorsHave_ofEnvelopeText (text : List Char) :
    ErrorsHave Fault.IsOneLine (ofEnvelopeText text) := by
  have harmor : ErrorsHave Fault.IsOneLine ((Pem.Strict.decode text).mapError .armor) :=
    ErrorsHave.mapError fun fault h =>
      Fault.isOneLine_armor (Pem.Strict.errorsHave_decode text fault h)
  refine harmor.bind fun block => ?_
  refine (errorsHave_structure _).bind fun _ => ?_
  refine .check (Fault.isOneLine_armor (by decide)) ?_
  exact (errorsHave_structure _).bind fun e => e.errorsHave_signing

/-- **Why a text has no key** is said without a word of it. -/
theorem errorsHave_read (text : String) : ErrorsHave Fault.IsOneLine (read text) := by
  unfold read
  split
  · split
    · exact errorsHave_ok _ _
    · exact errorsHave_error (by decide)
  · exact errorsHave_ofEnvelopeText text.toList

end Key

/-! ### Certificates -/

namespace Pem.Lenient

/-- The texts that a fault quotes as they are, if they may break the line. -/
def Fault.quoted : Fault → List String
  | .labelsDiffer first last => [first, last]
  | _ => []

/-- A fault that is worded on one line, but for what it quotes. -/
def Fault.IsOneLineBut (fault : Fault) : Prop :=
  lineFeeds fault.message = (fault.quoted.map lineFeeds).sum

instance (fault : Fault) : Decidable fault.IsOneLineBut := inferInstanceAs (Decidable (_ = _))

/-- Labels that differ are quoted both. -/
theorem Fault.isOneLineBut_labelsDiffer (first last : String) :
    (Fault.labelsDiffer first last).IsOneLineBut := by
  have hfixed : lineFeeds "mismatching BEGIN (\"" + lineFeeds "\") and END (\"" +
      lineFeeds "\") tags" = 0 := by decide
  change lineFeeds ("mismatching BEGIN (\"" ++ first ++ "\") and END (\"" ++ last ++ "\") tags") =
    lineFeeds first + (lineFeeds last + 0)
  simp only [lineFeeds_append]
  omega

/-- Data that is wrong is not quoted. -/
theorem Fault.isOneLineBut_data (fault : Base64.Fault) : (Fault.data fault).IsOneLineBut := by
  change lineFeeds ("invalid data: " ++ fault.message) = 0
  rw [lineFeeds_append, Base64.Fault.lineFeeds_message]
  decide

/-- A line among the headers is quoted, but it is one line. -/
theorem Fault.isOneLineBut_header {text line : List Char} (hline : line ∈ Text.lines text) :
    (Fault.header (String.ofList line)).IsOneLineBut := by
  have hzero : lineFeeds (String.ofList line) = 0 := by
    rw [lineFeeds_eq_zero_iff, String.toList_ofList]
    exact Text.lf_not_mem_of_mem_lines hline
  change lineFeeds ("invalid header: " ++ String.ofList line) = 0
  rw [lineFeeds_append, hzero]
  decide

/-- **A frame is refused** for a label that is missing, for labels that differ, for its data or for
its headers. -/
theorem Frame.errorsHave_decode (f : Frame) : ErrorsHave Fault.IsOneLineBut f.decode := by
  have hdata : ErrorsHave Fault.IsOneLineBut
      ((Base64.decode (Utf8.encode f.data)).mapError .data) :=
    ErrorsHave.mapError fun fault _ => Fault.isOneLineBut_data fault
  -- in the order in which they are looked at
  refine .check (by decide) ?_
  refine .check (by decide) ?_
  refine .check (Fault.isOneLineBut_labelsDiffer _ _) ?_
  refine hdata.bind fun bytes => ?_
  split
  next line hheader =>
    exact errorsHave_error (Fault.isOneLineBut_header (List.mem_of_find?_eq_some hheader))
  · exact errorsHave_ok _ _

/-- **Why a text has no certificate** is said on one line, but for labels that differ. -/
theorem errorsHave_decode (text : String) : ErrorsHave Fault.IsOneLineBut (decode text) := by
  unfold decode
  split
  next f _ => exact f.errorsHave_decode
  · exact errorsHave_error (by decide)

end Pem.Lenient

end TokenForge
