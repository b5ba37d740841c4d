import TokenForge.Proofs.Json.Complete
import TokenForge.Proofs.Json.Sound
import TokenForge.Token.Payload

/-!
# The language of payloads

Which texts are payloads, which are refused and why. The language is that of `SpellsPadded`, with at
most 127 containers nested (`IsText`); the reader decides it, and the kind of the value decides what
becomes of a text that belongs to it.

* `read_eq_ok_iff_isText` — the reader gives exactly what a text spells;
* `Payload.read_decides` — what becomes of every text as a payload.
-/

namespace TokenForge

namespace Json

/-- **A JSON text that spells `v`**, with at most 127 arrays and objects nested. -/
def IsText (text : String) (v : Value) : Prop := SpellsPadded text.toList v ∧ v.depth ≤ 127

/-- A value that is no object, and the name of its kind. -/
inductive NotObject : Value → String → Prop
  | null : NotObject .null "null"
  | bool (b : Bool) : NotObject (.bool b) "boolean"
  | number (n : Number) : NotObject (.number n) "number"
  | string (s : String) : NotObject (.string s) "string"
  | array (vs : List Value) : NotObject (.array vs) "array"

/-- **The reader gives exactly what a text spells**, with the members of its objects put
together. -/
theorem read_eq_ok_iff_isText {text : String} {u : Value} :
    read text = .ok u ↔ ∃ v, IsText text v ∧ u = v.merged := by
  constructor
  · intro h
    obtain ⟨v, hv, hdepth, rfl⟩ := spelled_of_read h
    exact ⟨v, ⟨hv, hdepth⟩, rfl⟩
  · rintro ⟨v, ⟨hv, hdepth⟩, rfl⟩
    exact read_of_spelled hv hdepth

@[simp] theorem Value.isObject_merged (v : Value) : v.merged.isObject = v.isObject := by
  cases v <;> rfl

@[simp] theorem Value.kind_merged (v : Value) : v.merged.kind = v.kind := by
  cases v <;> rfl

/-- A value is no object exactly if it has one of the other kinds. -/
theorem notObject_iff {v : Value} {kind : String} :
    NotObject v kind ↔ v.isObject = false ∧ v.kind = kind := by
  constructor
  · rintro (_ | _ | _ | _ | _) <;> exact ⟨rfl, rfl⟩
  · rintro ⟨hobj, rfl⟩
    cases v with
    | null => exact .null
    | bool b => exact .bool b
    | number n => exact .number n
    | string s => exact .string s
    | array vs => exact .array vs
    | object ms => exact absurd hobj (by simp [Value.isObject])

end Json

open Json

namespace Payload

variable {text : String} {v : Value}

/-! ### What becomes of what is read -/

/-- What is read as an object is the payload. -/
theorem read_of_isObject (h : Json.read text = .ok v) (hobj : v.isObject = true) :
    read text = .ok v := by
  simp [read, h, check, hobj, Except.mapError, bind, Except.bind, pure, Except.pure]

/-- What is read as something else is refused for its kind. -/
theorem read_of_not_isObject (h : Json.read text = .ok v) (hobj : v.isObject = false) :
    read text = .error (.payloadNotObject v.kind) := by
  simp [read, h, check, hobj, Except.mapError, bind, Except.bind]

/-- What cannot be read is refused with the wording of the fault. -/
theorem read_of_fault {fault : Json.Fault} (h : Json.read text = .error fault) :
    read text = .error (.invalidPayload fault.message) := by
  simp [read, h, Except.mapError, bind, Except.bind]

/-- A payload is what its text is read as. -/
theorem json_read_of_read (h : read text = .ok v) : Json.read text = .ok v := by
  cases hread : Json.read text with
  | error fault => exact absurd (h.symm.trans (read_of_fault hread)) (by simp)
  | ok u =>
    -- a value that is no object would have been refused
    cases hobj : u.isObject with
    | true => rw [Except.ok.inj ((read_of_isObject hread hobj).symm.trans h)]
    | false => exact absurd (h.symm.trans (read_of_not_isObject hread hobj)) (by simp)

/-- A text of the language is a payload if it spells an object. -/
theorem read_of_isText_object {ms : Members} (h : IsText text (.object ms)) :
    read text = .ok (Value.object ms).merged :=
  read_of_isObject (read_eq_ok_iff_isText.mpr ⟨_, h, rfl⟩) rfl

/-- A text of the language that spells something else is refused for its kind. -/
theorem read_of_isText_notObject {kind : String} (h : IsText text v) (hv : NotObject v kind) :
    read text = .error (.payloadNotObject kind) := by
  obtain ⟨hobj, rfl⟩ := notObject_iff.mp hv
  -- what is read is the value with its members put together, which is of the same kind
  have hread := read_of_not_isObject (read_eq_ok_iff_isText.mpr ⟨v, h, rfl⟩) (by simpa using hobj)
  rw [Value.kind_merged] at hread
  exact hread

/-- Every other text is refused as none of the language. -/
theorem read_of_not_isText (h : ¬∃ v, IsText text v) :
    ∃ reason, read text = .error (.invalidPayload reason) := by
  cases hread : Json.read text with
  | error fault => exact ⟨fault.message, read_of_fault hread⟩
  | ok u =>
    obtain ⟨v, hv, -⟩ := read_eq_ok_iff_isText.mp hread
    exact absurd ⟨v, hv⟩ h

/-- A value is an object or of another kind. -/
theorem object_or_notObject (v : Value) : (∃ ms, v = .object ms) ∨ ∃ kind, NotObject v kind := by
  cases hobj : v.isObject with
  | true =>
    cases v with
    | object ms => exact .inl ⟨ms, rfl⟩
    | _ => exact absurd hobj (by simp [Value.isObject])
  | false => exact .inr ⟨v.kind, notObject_iff.mpr ⟨hobj, rfl⟩⟩

/-- A text spells an object, or something else, or nothing; and it is read accordingly. -/
theorem read_cases (text : String) :
    (∃ ms, IsText text (.object ms) ∧ read text = .ok (Value.object ms).merged) ∨
      (∃ v kind, IsText text v ∧ NotObject v kind ∧
        read text = .error (.payloadNotObject kind)) ∨
      ((¬∃ v, IsText text v) ∧ ∃ reason, read text = .error (.invalidPayload reason)) := by
  by_cases htext : ∃ v, IsText text v
  · obtain ⟨v, hv⟩ := htext
    rcases object_or_notObject v with ⟨ms, rfl⟩ | ⟨kind, hkind⟩
    · exact .inl ⟨ms, hv, read_of_isText_object hv⟩
    · exact .inr (.inl ⟨v, kind, hv, hkind, read_of_isText_notObject hv hkind⟩)
  · exact .inr (.inr ⟨htext, read_of_not_isText htext⟩)

/-- **What becomes of a text.** It is a payload exactly if it spells an object, and then it is that
object with its members put together; it is refused for its kind exactly if it spells a value of
that kind; and it is refused as no JSON exactly if it spells nothing. -/
theorem read_decides (text : String) :
    (∀ u, read text = .ok u ↔
      ∃ ms, IsText text (.object ms) ∧ u = .object (putAll [] (mergedMembers ms))) ∧
    (∀ kind, read text = .error (.payloadNotObject kind) ↔
      ∃ v, IsText text v ∧ NotObject v kind) ∧
    ((∃ reason, read text = .error (.invalidPayload reason)) ↔ ¬∃ v, IsText text v) := by
  -- each cause of an outcome is one case of `read_cases`, and the outcomes exclude each other
  refine ⟨fun u => ⟨fun h => ?_, ?_⟩, fun kind => ⟨fun h => ?_, ?_⟩, ⟨?_, read_of_not_isText⟩⟩
  · rcases read_cases text with ⟨ms, hms, hread⟩ | ⟨v, k, -, -, hread⟩ | ⟨-, reason, hread⟩
    · exact ⟨ms, hms, Except.ok.inj (h.symm.trans hread)⟩
    · exact absurd (h.symm.trans hread) (by simp)
    · exact absurd (h.symm.trans hread) (by simp)
  · rintro ⟨ms, hms, rfl⟩
    exact read_of_isText_object hms
  · rcases read_cases text with ⟨ms, -, hread⟩ | ⟨v, k, hv, hk, hread⟩ | ⟨-, reason, hread⟩
    · exact absurd (h.symm.trans hread) (by simp)
    · obtain rfl := Error.payloadNotObject.inj (Except.error.inj (h.symm.trans hread))
      exact ⟨v, hv, hk⟩
    · exact absurd (h.symm.trans hread) (by simp)
  · rintro ⟨v, hv, hk⟩
    exact read_of_isText_notObject hv hk
  · rintro ⟨reason, h⟩ htext
    rcases read_cases text with ⟨ms, -, hread⟩ | ⟨v, k, -, -, hread⟩ | ⟨hnone, -⟩
    · exact absurd (h.symm.trans hread) (by simp)
    · exact absurd (h.symm.trans hread) (by simp)
    · exact hnone htext

end Payload

end TokenForge
