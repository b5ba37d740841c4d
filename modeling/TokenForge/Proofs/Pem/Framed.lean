import TokenForge.Pem.Strict
import TokenForge.Proofs.Base64.Canonical
import TokenForge.Proofs.Base64.Symbols
import TokenForge.Proofs.Except

/-!
# The frame of a strict block

A text that is decoded is a preamble and a block, and nothing else (`Strict.decode_eq_ok`). The
preamble is empty or ends in a line feed, and the lines of the block are its marks and its base64.

* `Strict.Block` — a block as it stands in a text;
* `Strict.preamble` — what stands before the block;
* `Strict.dash_not_mem_lines` — the base64 is free of dashes.
-/

namespace TokenForge.Pem.Strict

variable {text block label rest read suffix lines : List Char} {gap : Bool} {c : Char}

/-! ### Line endings -/

/-- The ending of a line. -/
inductive IsEnding : List Char → Prop
  | lf : IsEnding ['\n']
  | crlf : IsEnding ['\r', '\n']
  | cr : IsEnding ['\r']

theorem IsEnding.ne_nil {e : List Char} (h : IsEnding e) : e ≠ [] := by
  cases h <;> simp

theorem IsEnding.mem {e : List Char} (h : IsEnding e) (hc : c ∈ e) : c = '\n' ∨ c = '\r' := by
  cases h <;> simp_all [or_comm]

/-- What is taken off the front is an ending. -/
theorem stripStart?_eq_some (h : stripStart? text = some rest) :
    ∃ e, IsEnding e ∧ text = e ++ rest := by
  unfold stripStart? at h
  split at h
  · exact ⟨_, .lf, by rw [Option.some.inj h]; rfl⟩
  · exact ⟨_, .crlf, by rw [Option.some.inj h]; rfl⟩
  · exact ⟨_, .cr, by rw [Option.some.inj h]; rfl⟩
  · exact absurd h (by simp)

/-- What is taken off the end is an ending. -/
theorem stripEnd?_eq_some (h : stripEnd? text = some rest) :
    ∃ e, IsEnding e ∧ text = rest ++ e := by
  have hrev {cs : List Char} (hcs : text.reverse = cs) : text = cs.reverse := by
    rw [← hcs, List.reverse_reverse]
  unfold stripEnd? at h
  split at h
  next hcs => exact ⟨_, .crlf, by rw [← Option.some.inj h, hrev hcs]; simp⟩
  next hcs => exact ⟨_, .lf, by rw [← Option.some.inj h, hrev hcs]; simp⟩
  next hcs => exact ⟨_, .cr, by rw [← Option.some.inj h, hrev hcs]; simp⟩
  · exact absurd h (by simp)

/-- A text is what is left of it without its last line ending, and that ending, if it has one. -/
theorem exists_getD_stripEnd? (text : List Char) :
    ∃ e, (e = [] ∨ IsEnding e) ∧ text = (stripEnd? text).getD text ++ e := by
  cases h : stripEnd? text with
  | none => exact ⟨[], .inl rfl, by simp⟩
  | some rest =>
    obtain ⟨e, he, htext⟩ := stripEnd?_eq_some h
    exact ⟨e, .inr he, htext⟩

/-! ### The frame -/

/-- The block that is skipped to begins with its mark, behind a line feed. -/
theorem skipToLine_eq_some (h : skipToLine text = some block) :
    ∃ before, text = before ++ '\n' :: block ∧ beginMark <+: block := by
  induction text with
  | nil => exact absurd h (by simp [skipToLine])
  | cons c cs ih =>
    unfold skipToLine at h
    split at h
    · exact absurd h (by simp)
    split at h
    · next hline =>
      obtain rfl := Option.some.inj h
      exact ⟨[], by rw [hline.1]; rfl, List.isPrefixOf_iff_prefix.mp hline.2⟩
    · obtain ⟨before, htext, hmark⟩ := ih h
      exact ⟨c :: before, by rw [htext]; rfl, hmark⟩

/-- **What stands before the block** of a text. -/
def preamble (text : List Char) : List Char :=
  text.take (text.length - ((skipPreamble text).getD []).length)

/-- **A text is its preamble and its block**, and the block begins a line. -/
theorem skipPreamble_eq_some (h : skipPreamble text = some block) :
    text = preamble text ++ block ∧ beginMark <+: block ∧
      (preamble text = [] ∨ ∃ before, preamble text = before ++ ['\n']) := by
  have hpreamble {before : List Char} (htext : text = before ++ block) :
      preamble text = before := by
    rw [preamble, h]
    simp [htext]
  unfold skipPreamble at h
  split at h
  · next hmark =>
    obtain rfl := Option.some.inj h
    have hnil : preamble text = [] := hpreamble rfl
    exact ⟨by rw [hnil]; rfl, List.isPrefixOf_iff_prefix.mp hmark, .inl hnil⟩
  · -- the text does not begin with the mark, so a line before it is skipped
    obtain ⟨before, htext, hmark⟩ := skipToLine_eq_some h
    have hline : text = (before ++ ['\n']) ++ block := by simp [htext]
    rw [hpreamble hline]
    exact ⟨hline, hmark, .inr ⟨before, rfl⟩⟩

/-- A label is read off the front of the text. -/
theorem labelFrom_eq_some (h : labelFrom read gap text = some (label, rest)) :
    read.reverse ++ text = label ++ rest := by
  induction text generalizing read gap with
  | nil =>
    obtain ⟨rfl, rfl⟩ := Prod.mk.inj (Option.some.inj h)
    rfl
  | cons c cs ih =>
    have hread : read.reverse ++ c :: cs = (c :: read).reverse ++ cs := by simp
    unfold labelFrom at h
    split at h
    · obtain ⟨rfl, rfl⟩ := Prod.mk.inj (Option.some.inj h)
      rfl
    split at h
    · rw [hread]
      exact ih h
    split at h
    · rw [hread]
      exact ih h
    · -- nothing else may stand in a label
      exact absurd h (by simp)

/-- **The first line**: its label, its dashes and its ending. -/
theorem splitLabel?_eq_some (h : splitLabel? text = some (label, rest)) :
    ∃ e, IsEnding e ∧ text = label ++ (dashes ++ (e ++ rest)) := by
  simp only [splitLabel?, Option.bind_eq_bind, Option.bind_eq_some_iff, Prod.exists] at h
  obtain ⟨found, after, hlabel, h⟩ := h
  split at h
  · next hdashes =>
    obtain ⟨tail, htail⟩ := List.isPrefixOf_iff_prefix.mp hdashes
    simp only [Option.bind_eq_some_iff] at h
    obtain ⟨left, hstrip, hleft⟩ := h
    obtain ⟨rfl, rfl⟩ := Prod.mk.inj (Option.some.inj hleft)
    rw [← htail, List.drop_left] at hstrip
    obtain ⟨e, he, hrest⟩ := stripStart?_eq_some hstrip
    refine ⟨e, he, ?_⟩
    rw [← hrest, htail]
    exact labelFrom_eq_some hlabel
  · exact absurd h (by simp)

/-- What stands in front of an ending, and the ending, are the text. -/
theorem before?_eq_some (h : before? suffix text = some rest) : text = rest ++ suffix := by
  unfold before? at h
  split at h
  · next hsuffix =>
    obtain ⟨front, rfl⟩ := List.isSuffixOf_iff_suffix.mp hsuffix
    rw [← Option.some.inj h]
    simp
  · exact absurd h (by simp)

/-! ### The base64 -/

/-- **The lines of the base64 leave out nothing but line endings.** -/
theorem mem_flatten_of_base64Lines? {rows : List (List Char)} (h : base64Lines? text = some rows)
    (hc : c ∈ text) : c ∈ rows.flatten ∨ c = '\n' ∨ c = '\r' := by
  induction text using base64Lines?.induct generalizing rows with
  -- the last line, and perhaps its ending
  | case1 text hshort =>
    rw [base64Lines?, if_pos hshort] at h
    rw [← Option.some.inj h, if_neg (List.ne_nil_of_mem hc)]
    obtain ⟨e, he, htext⟩ := exists_getD_stripEnd? text
    rw [htext, List.mem_append] at hc
    rcases hc with hc | hc
    · exact .inl (by simpa using hc)
    · rcases he with rfl | he
      · exact absurd hc List.not_mem_nil
      · exact .inr (he.mem hc)
  | case2 text hlong hnone =>
    rw [base64Lines?, if_neg hlong, hnone] at h
    exact absurd h (by simp)
  -- a whole line, its ending, and the lines behind it
  | case3 text hlong rest hrest ih =>
    rw [base64Lines?, if_neg hlong, hrest, Option.map_eq_some_iff] at h
    obtain ⟨more, hmore, rfl⟩ := h
    obtain ⟨e, he, hdrop⟩ := stripStart?_eq_some hrest
    rw [← List.take_append_drop width text, hdrop, List.mem_append, List.mem_append] at hc
    rw [List.flatten_cons, List.mem_append]
    rcases hc with hc | hc | hc
    · exact .inl (.inl hc)
    · exact .inr (he.mem hc)
    · exact (ih hmore hc).imp_left .inr

/-- **The base64 of a block is free of dashes.** -/
theorem dash_not_mem_lines {bytes : Bytes} (h : unwrap lines = .ok bytes) : '-' ∉ lines := by
  intro hdash
  cases hrows : base64Lines? lines with
  | none => simp [unwrap, hrows] at h
  | some rows =>
    cases hbytes : bytesOf? rows with
    | none => simp [unwrap, hrows, hbytes] at h
    | some out =>
      unfold bytesOf? at hbytes
      dsimp only at hbytes
      split at hbytes
      · exact absurd hbytes (by simp)
      cases hdecode : Base64.decode (Utf8.encode rows.flatten) with
      | error fault => simp [hdecode, Except.toOption] at hbytes
      | ok decoded =>
        -- the symbols are the encoding of what they decode to
        have hsymbols := Base64.decode_encode_eq_ok_iff.mp hdecode
        rcases mem_flatten_of_base64Lines? hrows hdash with hmem | hending | hending
        · rw [hsymbols] at hmem
          exact Base64.dash_not_mem_encodePadded _ hmem
        · exact absurd hending (by decide)
        · exact absurd hending (by decide)

/-! ### The whole text -/

/-- **A block as it stands in a text.** -/
structure Block where
  label : List Char
  /-- The ending of the first line. -/
  first : List Char
  /-- The base64, in its lines. -/
  lines : List Char
  /-- The ending before the last line. -/
  last : List Char
  /-- What stands behind the last line. -/
  tail : List Char
  isEnding_first : IsEnding first
  isEnding_last : IsEnding last
  isEnding_tail : tail = [] ∨ IsEnding tail

/-- The characters of a block. -/
def Block.chars (b : Block) : List Char :=
  beginMark ++ (b.label ++ (dashes ++ (b.first ++ (b.lines ++ (b.last ++ (endMark ++
    (b.label ++ (dashes ++ b.tail))))))))

/-- What the parts of a text that is decoded are found to be. -/
theorem parts_of_decode {bytes : Bytes} (h : decode text = .ok (label, bytes)) :
    ∃ block afterLabel body lines : List Char, skipPreamble text = some block ∧
      splitLabel? (block.drop beginMark.length) = some (label, afterLabel) ∧
      before? dashes ((stripEnd? afterLabel).getD afterLabel) = some body ∧
      (do stripEnd? (← before? endMark (← before? label body))) = some lines ∧
      unwrap lines = .ok bytes := by
  unfold decode at h
  -- every part that is missing ends it in an error
  split at h
  case h_2 => cases h
  next block hblock =>
  split at h
  case h_2 => cases h
  next found afterLabel hlabel =>
  split at h
  case h_2 => cases h
  next body hbody =>
  split at h
  case h_2 => cases h
  next lines hlines =>
  simp only [bind_eq_ok, mapError_eq_ok, pure_eq_ok] at h
  obtain ⟨out, hbytes, hfound⟩ := h
  obtain ⟨rfl, rfl⟩ := Prod.mk.inj hfound
  exact ⟨block, afterLabel, body, lines, hblock, hlabel, hbody, hlines, hbytes⟩

/-- **What is decoded is one block behind a preamble.** -/
theorem decode_eq_ok {bytes : Bytes} (h : decode text = .ok (label, bytes)) :
    ∃ b : Block, skipPreamble text = some b.chars ∧ b.label = label ∧
      unwrap b.lines = .ok bytes := by
  obtain ⟨block, afterLabel, body, lines, hblock, hlabel, hbody, hlines, hbytes⟩ :=
    parts_of_decode h
  simp only [Option.bind_eq_bind, Option.bind_eq_some_iff] at hlines
  obtain ⟨beforeLabel, hbeforeLabel, beforeEnd, hbeforeEnd, hend⟩ := hlines
  -- the first line from the front
  obtain ⟨-, ⟨afterMark, hmark⟩, -⟩ := skipPreamble_eq_some hblock
  rw [← hmark, List.drop_left] at hlabel
  obtain ⟨first, hfirst, hfirstLine⟩ := splitLabel?_eq_some hlabel
  -- and the last one from the end
  obtain ⟨last, hlast, hlastLine⟩ := stripEnd?_eq_some hend
  obtain ⟨tail, htail, hafterLabel⟩ := exists_getD_stripEnd? afterLabel
  refine ⟨⟨label, first, lines, last, tail, hfirst, hlast, htail⟩, ?_, rfl, hbytes⟩
  -- what stands behind the first line, from its end
  have hrest : afterLabel = lines ++ (last ++ (endMark ++ (label ++ (dashes ++ tail)))) := by
    calc afterLabel = (body ++ dashes) ++ tail := by
          rw [← before?_eq_some hbody, ← hafterLabel]
      _ = ((beforeEnd ++ endMark) ++ label ++ dashes) ++ tail := by
          rw [before?_eq_some hbeforeLabel, before?_eq_some hbeforeEnd]
      _ = _ := by rw [hlastLine]; simp only [List.append_assoc]
  rw [hblock, ← hmark, hfirstLine, hrest]
  rfl

end TokenForge.Pem.Strict
