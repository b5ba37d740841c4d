import TokenForge.Proofs.Base64.Canonical
import TokenForge.Proofs.Except
import TokenForge.Proofs.Pem.Armor

/-!
# Certificates are kept as they are

Whatever a certificate file holds, what comes into the token is what stands in the file between the
marks, without white space and otherwise unchanged (`Certificate.body_verbatim`). A blank line parts
the headers of a block from its data, so it might cut a certificate short; but the lines before it
are then taken for headers, and a line without a colon is none (`Lenient.split_of_colonless`).

* `Lenient.Place` — where a block stands in a text; `frame?_eq_some` — the first block has a place;
* `Lenient.split_cases` — what is dropped as headers;
* `Lenient.decode_eq_ok` — what is checked before a block is decoded.
-/

namespace TokenForge

namespace Text

variable {text read line : List Char} {c : Char}

/-! ### Lines -/

/-- A line without the CR at its end is made of its characters. -/
theorem mem_of_mem_dropCr (h : c ∈ dropCr line) : c ∈ line := by
  unfold dropCr at h
  split at h
  · exact List.dropLast_subset line h
  · exact h

/-- The lines from the middle of one on are made of what was read of it and of what follows. -/
theorem mem_of_mem_linesFrom (hline : line ∈ linesFrom read text) (h : c ∈ line) :
    c ∈ read ∨ c ∈ text := by
  induction text generalizing read with
  | nil =>
    unfold linesFrom at hline
    split at hline
    · exact absurd hline List.not_mem_nil
    · rw [List.mem_singleton.mp hline, List.mem_reverse] at h
      exact .inl h
  | cons d ds ih =>
    unfold linesFrom at hline
    split at hline
    -- the first line ends here, and the others are made of what follows
    · rcases List.mem_cons.mp hline with rfl | hline
      · exact .inl (List.mem_reverse.mp (mem_of_mem_dropCr h))
      · exact (ih hline).elim (fun hnil => absurd hnil List.not_mem_nil)
          fun hmem => .inr (List.mem_cons_of_mem d hmem)
    · rcases ih hline with hmem | hmem
      · rcases List.mem_cons.mp hmem with rfl | hmem
        · exact .inr List.mem_cons_self
        · exact .inl hmem
      · exact .inr (List.mem_cons_of_mem d hmem)

/-- **The lines of a text are made of its characters.** -/
theorem mem_of_mem_lines (hline : line ∈ lines text) (h : c ∈ line) : c ∈ text :=
  (mem_of_mem_linesFrom hline h).resolve_left List.not_mem_nil

/-- A line holds no line feed, as one would end it. -/
theorem lf_not_mem_of_mem_linesFrom (hread : '\n' ∉ read) (hline : line ∈ linesFrom read text) :
    '\n' ∉ line := by
  induction text generalizing read with
  | nil =>
    unfold linesFrom at hline
    split at hline
    · exact absurd hline List.not_mem_nil
    · rwa [List.mem_singleton.mp hline, List.mem_reverse]
  | cons d ds ih =>
    unfold linesFrom at hline
    split at hline
    · rcases List.mem_cons.mp hline with rfl | hline
      · exact fun h => hread (List.mem_reverse.mp (mem_of_mem_dropCr h))
      · exact ih List.not_mem_nil hline
    · next hd => exact ih (List.not_mem_cons_of_ne_of_not_mem (Ne.symm hd) hread) hline

/-- No line of a text holds a line feed. -/
theorem lf_not_mem_of_mem_lines (hline : line ∈ lines text) : '\n' ∉ line :=
  lf_not_mem_of_mem_linesFrom List.not_mem_nil hline

/-- There is a line if something was read or something follows. -/
theorem linesFrom_ne_nil (h : read ≠ [] ∨ text ≠ []) : linesFrom read text ≠ [] := by
  induction text generalizing read with
  | nil => simpa [linesFrom] using h
  | cons d ds ih =>
    unfold linesFrom
    split
    · exact List.cons_ne_nil _ _
    · exact ih (.inl (List.cons_ne_nil d read))

/-- A text that is not empty has a line. -/
theorem lines_ne_nil (h : text ≠ []) : lines text ≠ [] := linesFrom_ne_nil (.inr h)

end Text

namespace Pem.Lenient

variable {text : List Char} {f : Frame}

/-! ### The place of the first block -/

/-- **Where a block stands in a text.** -/
structure Place where
  before : List Char
  /-- The white space behind the first line of the block. -/
  gap : List Char
  after : List Char
  blank : ∀ c ∈ gap, isGap c = true

/-- The text with a block at a place. -/
def Place.fill (p : Place) (f : Frame) : List Char :=
  p.before ++ (beginMark ++ (f.label ++ (dashes ++ (p.gap ++ (f.body ++ (endMark ++
    (f.endLabel ++ (dashes ++ p.after))))))))

/-- **The first block has a place**, and its body does not begin with white space. -/
theorem frame?_eq_some (h : frame? text = some f) :
    ∃ p : Place, text = p.fill f ∧ ∀ c ∈ f.body.head?, isGap c = false := by
  simp only [frame?, Option.bind_eq_bind, Option.bind_eq_some_iff, Prod.exists] at h
  obtain ⟨before, afterBegin, hbegin, label, afterLabel, hlabel, body, afterBody, hbody, endLabel,
    after, hend, hf⟩ := h
  obtain rfl := Option.some.inj hf
  have hgap : afterLabel.takeWhile isGap ++ (body ++ (endMark ++ afterBody)) = afterLabel := by
    rw [← Text.seek_eq_some hbody, List.takeWhile_append_dropWhile]
  refine ⟨⟨before, afterLabel.takeWhile isGap, after,
    fun c hc => List.all_eq_true.mp List.all_takeWhile c hc⟩, ?_, ?_⟩
  -- each search found what it looked for
  · calc text = before ++ (beginMark ++ afterBegin) := Text.seek_eq_some hbegin
      _ = before ++ (beginMark ++ (label ++ (dashes ++ afterLabel))) := by
        rw [Text.seek_eq_some hlabel]
      _ = before ++ (beginMark ++ (label ++ (dashes ++ (afterLabel.takeWhile isGap ++
            (body ++ (endMark ++ afterBody)))))) := by rw [hgap]
      _ = _ := by rw [Text.seek_eq_some hend]; rfl
  · intro c hc
    obtain ⟨cs, hbodyeq⟩ : ∃ cs, body = c :: cs := by
      cases body with
      | nil => exact absurd hc (by simp)
      | cons d ds => exact ⟨ds, by rw [Option.some.inj hc]⟩
    have hdrop : afterLabel.dropWhile isGap = c :: (cs ++ (endMark ++ afterBody)) := by
      rw [Text.seek_eq_some hbody, hbodyeq, List.cons_append]
    have hhead := List.head?_dropWhile_not isGap afterLabel
    rw [hdrop] at hhead
    simpa using hhead

/-! ### Headers -/

/-- **What is split off** stands before a line end and another, if anything is. -/
theorem split_cases (f : Frame) :
    f.split = ([], f.body) ∨ ∃ headers data mark : List Char, f.split = (headers, data) ∧
      f.body = headers ++ (mark ++ data) ∧ ∃ c ∈ mark.head?, isGap c = true := by
  unfold Frame.split
  cases hlf : Text.seek ['\n', '\n'] f.body with
  | some parts =>
    exact .inr ⟨parts.1, parts.2, _, rfl, Text.seek_eq_some hlf, '\n', rfl, rfl⟩
  | none =>
    cases hcrlf : Text.seek ['\r', '\n', '\r', '\n'] f.body with
    | some parts =>
      exact .inr ⟨parts.1, parts.2, _, rfl, Text.seek_eq_some hcrlf, '\r', rfl, rfl⟩
    | none => exact .inl rfl

/-- **Without a colon nothing is split off**, as the first line split off would be a bad header. -/
theorem split_of_colonless (hbody : ∀ c ∈ f.body.head?, isGap c = false) (hcolon : ':' ∉ f.body)
    (hheader : f.badHeader? = none) : f.split = ([], f.body) := by
  rcases split_cases f with hsplit | ⟨headers, data, mark, hsplit, hparts, c, hc, hgap⟩
  · exact hsplit
  exfalso
  -- the body begins with no line end, so there is a first line before the mark
  have hne : headers ≠ [] := by
    rintro rfl
    have hhead : c ∈ f.body.head? := by
      rw [hparts, List.nil_append, List.head?_append_of_ne_nil _ (by rintro rfl; simp at hc)]
      exact hc
    rw [hbody c hhead] at hgap
    exact absurd hgap (by decide)
  obtain ⟨line, lines, hlines⟩ := List.exists_cons_of_ne_nil (Text.lines_ne_nil hne)
  have hline : ':' ∉ line := fun hmem => by
    have hheaders := Text.mem_of_mem_lines (hlines ▸ List.mem_cons_self) hmem
    exact hcolon (hparts ▸ List.mem_append_left _ hheaders)
  rw [Frame.badHeader?, hsplit, hlines, List.find?_cons_of_pos (by simpa using hline)] at hheader
  exact absurd hheader (by simp)

/-! ### What is decoded -/

/-- **What is checked before a block is decoded**: its labels, its data and its headers. -/
theorem Frame.decode_eq_ok {label : String} {bytes : Bytes} (h : f.decode = .ok (label, bytes)) :
    String.ofList f.label = label ∧ f.endLabel = f.label ∧
      Base64.decode (Utf8.encode f.data) = .ok bytes ∧ f.badHeader? = none := by
  simp only [Frame.decode, check_eq_ok, bind_eq_ok, mapError_eq_ok] at h
  obtain ⟨-, -, hsame, decoded, hdata, h⟩ := h
  cases hheader : f.badHeader? with
  | some line =>
    rw [hheader] at h
    cases h
  | none =>
    rw [hheader] at h
    obtain ⟨rfl, rfl⟩ := Prod.mk.inj (pure_eq_ok.mp h)
    exact ⟨rfl, (not_not.mp hsame).symm, hdata, rfl⟩

/-- What is decoded is the first block. -/
theorem decode_eq_ok {text label : String} {bytes : Bytes} (h : decode text = .ok (label, bytes)) :
    ∃ f : Frame, frame? text.toList = some f ∧ f.decode = .ok (label, bytes) := by
  unfold decode at h
  cases hframe : frame? text.toList with
  | none => simp [hframe] at h
  | some f => exact ⟨f, rfl, by simpa [hframe] using h⟩

end Pem.Lenient

namespace Certificate

open Pem.Lenient

/-- What comes into a token is the base64 of a block with the label of certificates. -/
theorem body_eq_ok {text source r : String} (h : body text source = .ok r) :
    ∃ bytes : Bytes, decode text = .ok (label, bytes) ∧
      r.toList = Base64.encodePadded Base64.standard bytes := by
  unfold body at h
  cases hdecode : decode text with
  | error fault => simp [hdecode] at h
  | ok found =>
    obtain ⟨found, bytes⟩ := found
    simp only [hdecode] at h
    split at h
    · next hlabel =>
      obtain rfl := Except.ok.inj h
      exact ⟨bytes, by rw [hlabel], String.toList_ofList⟩
    · exact absurd h (by simp)

/-- **A certificate is kept as it is.** What comes into the token from a text is the data of the first
block of the text without its white space, character for character. The label of the block stands on
both its lines and is that of certificates, and the data is canonical base64. Only headers are
dropped: if there is no colon between the two lines, then the data is all that is between them. -/
theorem body_verbatim {text source r : String} (h : body text source = .ok r) :
    ∃ (f : Frame) (p : Place), frame? text.toList = some f ∧ text.toList = p.fill f ∧
      f.label = label.toList ∧ f.endLabel = label.toList ∧
      r.toList = f.split.2.filter (fun c => !Text.isBlank c) ∧ Base64.IsCanonical r.toList ∧
      (':' ∉ p.gap ++ f.body → f.split.2 = f.body ∧
        r.toList = (p.gap ++ f.body).filter fun c => !Text.isBlank c) := by
  obtain ⟨bytes, hdecode, hr⟩ := body_eq_ok h
  obtain ⟨f, hframe, hblock⟩ := decode_eq_ok hdecode
  obtain ⟨p, hplace, hbody⟩ := frame?_eq_some hframe
  obtain ⟨hlabel, hend, hdata, hheader⟩ := Frame.decode_eq_ok hblock
  have hfirst : f.label = label.toList := by rw [← hlabel, String.toList_ofList]
  -- only the encoding of the bytes is decoded to them, so the data was that encoding
  have hkept : r.toList = f.split.2.filter (fun c => !Text.isBlank c) := by
    rw [hr, ← Base64.decode_encode_eq_ok_iff.mp hdata]
    rfl
  refine ⟨f, p, hframe, hplace, hfirst, hend.trans hfirst, hkept, ?_, fun hcolon => ?_⟩
  · rw [hr]
    exact Base64.isCanonical_encodePadded bytes
  · rw [List.mem_append, not_or] at hcolon
    have hsplit := split_of_colonless hbody hcolon.2 hheader
    have hgap : p.gap.filter (fun c => !Text.isBlank c) = [] := by
      refine List.filter_eq_nil_iff.mpr fun c hc => ?_
      simp [isBlank_of_isGap (p.blank c hc)]
    rw [hkept, hsplit, List.filter_append, hgap]
    exact ⟨rfl, rfl⟩

/-- A certificate file with text around the block, headers, and white space in the data. -/
def headed : String :=
  "a: b -----BEGIN CERTIFICATE-----\r\n\tc: d\r\ne: f\n\nA Q\u00a0\n\n==-----END CERTIFICATE-----g"

/-- Headers are dropped, and the data behind them is kept. -/
theorem body_verbatim_headed :
    body headed "a.pem" = .ok "AQ==" ∧ ∃ (f : Frame) (p : Place),
      frame? headed.toList = some f ∧ headed.toList = p.fill f ∧
        "AQ==".toList = f.split.2.filter fun c => !Text.isBlank c := by
  have hbody : body headed "a.pem" = .ok "AQ==" := by decide
  obtain ⟨f, p, hframe, hplace, -, -, hkept, -⟩ := body_verbatim hbody
  exact ⟨hbody, f, p, hframe, hplace, hkept⟩

end Certificate

end TokenForge
