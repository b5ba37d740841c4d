import TokenForge.Proofs.Text.Seek
import TokenForge.Token.Certificate

/-!
# The first block alone decides

A search for a mark has its answer where the mark is complete, and does not look further
(`Text.seek_append_right`). So once the four marks of a block are found, nothing that stands behind
them has a say: neither further blocks, nor the beginnings of marks that the text broke off in
(`Lenient.frame?_append`). A text in which the marks are found is read alike, be it as a certificate
or with an error, whatever text is put behind it (`Certificate.body_append`).
-/

namespace TokenForge

namespace Text

variable {mark due read text before after : List Char}

/-- What was found stays found if the text goes on, and the rest of the text is longer. -/
theorem seekFrom_append_right (h : seekFrom mark due read text = some (before, after))
    (more : List Char) :
    seekFrom mark due read (text ++ more) = some (before, after ++ more) := by
  -- on the text, for any part of the mark that is due: the search takes the same turn at each
  -- character, and `more` is only reached if the text ends before the mark does
  induction text generalizing due read with
  | nil => simp at h
  | cons c cs ih =>
    rw [List.cons_append]
    rcases due with _ | ⟨d, due⟩
    · simp [seekFrom] at h
    by_cases hc : c = d
    · subst hc
      rcases due with _ | ⟨e, due⟩
      · rw [seekFrom_last] at h ⊢
        obtain ⟨rfl, rfl⟩ := Prod.mk.inj (Option.some.inj h)
        rfl
      · rw [seekFrom_more] at h ⊢
        exact ih h
    · rw [seekFrom_of_ne hc] at h ⊢
      exact ih h

/-- **A search that has found its mark is over.** -/
theorem seek_append_right (h : seek mark text = some (before, after)) (more : List Char) :
    seek mark (text ++ more) = some (before, after ++ more) :=
  seekFrom_append_right h more

end Text

namespace Pem.Lenient

variable {text : List Char} {f : Frame}

/-- White space is dropped alike if something else stands behind it. -/
theorem dropWhile_isGap_append (h : text.dropWhile isGap ≠ []) (more : List Char) :
    (text ++ more).dropWhile isGap = text.dropWhile isGap ++ more := by
  rw [List.dropWhile_append, if_neg (by simpa using h)]

/-- **The first block stays the first** if the text goes on. -/
theorem frame?_append (h : frame? text = some f) (more : List Char) :
    frame? (text ++ more) = some f := by
  simp only [frame?, Option.bind_eq_bind, Option.bind_eq_some_iff, Prod.exists] at h ⊢
  obtain ⟨before, afterBegin, hbegin, label, afterLabel, hlabel, body, afterBody, hbody, endLabel,
    after, hend, hf⟩ := h
  have hgap : afterLabel.dropWhile isGap ≠ [] := by
    intro hnil
    rw [hnil] at hbody
    exact absurd hbody (by simp [Text.seek])
  refine ⟨before, afterBegin ++ more, Text.seek_append_right hbegin more,
    label, afterLabel ++ more, Text.seek_append_right hlabel more,
    body, afterBody ++ more, ?_, endLabel, after ++ more, Text.seek_append_right hend more, hf⟩
  rw [dropWhile_isGap_append hgap]
  exact Text.seek_append_right hbody more

/-- A text is decoded alike if it goes on behind its first block. -/
theorem decode_append {text : String} (h : frame? text.toList = some f) (more : String) :
    decode (text ++ more) = decode text := by
  rw [decode, decode, String.toList_append, frame?_append h more.toList, h]

end Pem.Lenient

namespace Certificate

open Pem.Lenient

/-- Without a block the fault of a text is its framing. -/
theorem body_of_frame?_eq_none {text : String} (h : frame? text.toList = none) (source : String) :
    body text source = .error (.certificateUndecoded source "malformedframing") := by
  rw [body, decode, h]
  rfl

/-- **The first block alone decides.** Unless it is the framing that is at fault, a text gives the
same certificate or the same error, wording included, whatever stands behind it. -/
theorem body_append {text source : String}
    (h : body text source ≠ .error (.certificateUndecoded source "malformedframing"))
    (more : String) : body (text ++ more) source = body text source := by
  -- without a block the framing would be at fault
  cases hframe : frame? text.toList with
  | none => exact absurd (body_of_frame?_eq_none hframe source) h
  | some f => rw [body, body, decode_append hframe more]

/-- A text that ends with the last mark of a block whose lines name different labels. -/
def mislabelled : String :=
  "-----BEGIN CERTIFICATE-----\nAQ==\n-----END KEY-----"

/-- Behind it one more dash, the rest of a mark, and a certificate: the labels still differ. -/
theorem body_append_mislabelled :
    body mislabelled "a.pem" = .error (.certificateUndecoded "a.pem"
        "mismatching BEGIN (\"CERTIFICATE\") and END (\"KEY\") tags") ∧
      body (mislabelled ++ "-BEGIN CERTIFICATE-----\nAg==\n-----END CERTIFICATE-----") "a.pem" =
        .error (.certificateUndecoded "a.pem"
          "mismatching BEGIN (\"CERTIFICATE\") and END (\"KEY\") tags") := by
  have hbody : body mislabelled "a.pem" = .error (.certificateUndecoded "a.pem"
      "mismatching BEGIN (\"CERTIFICATE\") and END (\"KEY\") tags") := by rfl
  have hframing : body mislabelled "a.pem" ≠
      .error (.certificateUndecoded "a.pem" "malformedframing") := by
    rw [hbody]
    simp
  exact ⟨hbody, (body_append hframing _).trans hbody⟩

end Certificate

end TokenForge
