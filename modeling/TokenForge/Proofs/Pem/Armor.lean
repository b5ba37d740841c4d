import Mathlib.Data.List.Chain
import TokenForge.Proofs.Base64.Padded
import TokenForge.Proofs.Text.Seek
import TokenForge.Token.Certificate

/-!
# Armor put on and taken off

How bytes are armored, and that the lenient reader takes the armor off again: it finds the block
behind any text that does not hold its first mark, and what it decodes is what was armored
(`Lenient.decode_armor`). A certificate therefore stands in a token as the base64 of its file on one
line, however the lines of the file were broken (`Certificate.body_armor`).

* `LineEnd`, `rows`, `broken` — a text broken into lines;
* `armor` — a block with its label;
* `isChain_broken` — no line of a broken text is blank.
-/

namespace TokenForge.Pem

/-! ### Texts broken into lines -/

/-- What a line ends in. -/
inductive LineEnd where
  | lf
  | crlf
  deriving DecidableEq, Repr

/-- The characters of a line end. -/
def LineEnd.chars : LineEnd → List Char
  | .lf => ['\n']
  | .crlf => ['\r', '\n']

/-- **A text cut into lines of `width` characters**, the last perhaps shorter. There are no lines of
width 0. -/
def rows (width : Nat) (text : List Char) : List (List Char) :=
  if _h : 0 < width ∧ text ≠ [] then text.take width :: rows width (text.drop width) else []
termination_by text.length
decreasing_by
  have hpos := List.length_pos_iff.mpr _h.2
  rw [List.length_drop]
  omega

/-- A text broken into lines of `width` characters, each followed by its end. -/
def broken (width : Nat) (e : LineEnd) (text : List Char) : List Char :=
  (rows width text).flatMap fun line => line ++ e.chars

/-- **A block**: the data in lines between the line that opens it and the one that closes it. -/
def armor (label : List Char) (width : Nat) (e : LineEnd) (data : List Char) : List Char :=
  beginMark ++ label ++ dashes ++ e.chars ++ broken width e data ++ endMark ++ label ++ dashes

variable {label text data line preamble : List Char} {width : Nat} {e : LineEnd} {c : Char}

/-- A text that is not empty has a first line, and the lines of the rest. -/
theorem rows_of_pos (hwidth : 0 < width) (htext : text ≠ []) :
    rows width text = text.take width :: rows width (text.drop width) := by
  rw [rows, dif_pos ⟨hwidth, htext⟩]

@[simp] theorem rows_nil : rows width [] = [] := by
  rw [rows, dif_neg (fun h => h.2 rfl)]

/-- **The lines of a text are the text.** -/
theorem flatten_rows (hwidth : 0 < width) : (rows width text).flatten = text := by
  induction text using rows.induct width with
  | case1 text h ih => rw [rows_of_pos hwidth h.2, List.flatten_cons, ih, List.take_append_drop]
  | case2 text h =>
    have hnil : text = [] := by
      by_contra hne
      exact h ⟨hwidth, hne⟩
    rw [hnil, rows_nil, List.flatten_nil]

/-- No line is empty, and a line is made of characters of the text. -/
theorem of_mem_rows (h : line ∈ rows width text) : line ≠ [] ∧ line ⊆ text := by
  induction text using rows.induct width with
  | case1 text hcut ih =>
    -- the first line takes at least one character, as the width is not 0
    rw [rows_of_pos hcut.1 hcut.2, List.mem_cons] at h
    rcases h with rfl | h
    · refine ⟨fun hnil => ?_, List.take_subset width text⟩
      rcases List.take_eq_nil_iff.mp hnil with hzero | htext
      · exact absurd hcut.1 (by omega)
      · exact hcut.2 htext
    · exact ⟨(ih h).1, List.Subset.trans (ih h).2 (List.drop_subset width text)⟩
  | case2 text hcut =>
    rw [rows, dif_neg hcut] at h
    exact absurd h List.not_mem_nil

/-- A broken text begins with the first character of the text. -/
theorem exists_broken_cons (hwidth : 0 < width) (e : LineEnd) (c : Char) (cs : List Char) :
    ∃ rest, broken width e (c :: cs) = c :: rest := by
  obtain ⟨w, rfl⟩ := Nat.exists_eq_succ_of_ne_zero (Nat.ne_of_gt hwidth)
  rw [broken, rows_of_pos hwidth (List.cons_ne_nil c cs)]
  exact ⟨_, rfl⟩

/-- A broken text is made of characters of the text and of line ends. -/
theorem mem_broken (h : c ∈ broken width e text) : c ∈ text ∨ c ∈ e.chars := by
  obtain ⟨line, hline, hc⟩ := List.mem_flatMap.mp h
  rw [List.mem_append] at hc
  exact hc.imp_left fun hmem => (of_mem_rows hline).2 hmem

/-- **What is no blank is kept**: without its blanks a broken text is the text. -/
theorem filter_broken (hwidth : 0 < width) (h : ∀ c ∈ text, Text.isBlank c = false) :
    (broken width e text).filter (fun c => !Text.isBlank c) = text := by
  -- of each line with its end the filter leaves the line, and the lines make the text
  have hend : e.chars.filter (fun c => !Text.isBlank c) = [] := by cases e <;> decide
  have hlines : ∀ line ∈ rows width text,
      (line ++ e.chars).filter (fun c => !Text.isBlank c) = line := by
    intro line hline
    rw [List.filter_append, hend, List.append_nil, List.filter_eq_self]
    intro c hc
    rw [h c ((of_mem_rows hline).2 hc)]
    rfl
  rw [broken, List.filter_flatMap, List.flatMap_congr hlines, List.flatMap_id', flatten_rows hwidth]

/-- A line feed is followed by neither end of a line. -/
def NoBlankLine (text : List Char) : Prop :=
  text.IsChain fun b c => b = '\n' → c ≠ '\n' ∧ c ≠ '\r'

/-- Lines that are not empty and hold no line end make no blank line. -/
theorem noBlankLine_flatMap {lines : List (List Char)}
    (h : ∀ line ∈ lines, line ≠ [] ∧ ∀ c ∈ line, c ≠ '\n' ∧ c ≠ '\r') :
    NoBlankLine (lines.flatMap fun line => line ++ e.chars) := by
  induction lines with
  | nil => exact .nil
  | cons line lines ih =>
    rw [List.forall_mem_cons] at h
    -- inside a line there is no line feed, so nothing is asked of it
    have hline : NoBlankLine line := by
      refine List.isChain_iff_forall_rel_of_append_cons_cons.mpr fun b _ _ _ heq hb => ?_
      exact absurd hb (h.1.2 b (by rw [heq]; simp)).1
    have hend : NoBlankLine e.chars := by cases e <;> simp [NoBlankLine, LineEnd.chars]
    rw [List.flatMap_cons]
    refine (hline.append hend ?_).append (ih h.2) ?_
    · intro b hb _ _ hlf
      exact absurd hlf (h.1.2 b (List.mem_of_getLast? hb)).1
    · intro _ _ c hc _
      -- the next line is not empty, so what follows the line end is a character of it
      rcases lines with _ | ⟨next, lines⟩
      · simp at hc
      · obtain ⟨hne, hnext⟩ := h.2 next List.mem_cons_self
        rw [List.flatMap_cons, List.append_assoc, List.head?_append_of_ne_nil _ hne] at hc
        exact hnext c (List.mem_of_head? hc)

/-- **No line of a broken text is blank.** -/
theorem noBlankLine_broken (width : Nat) (e : LineEnd) (h : ∀ c ∈ text, Text.isBlank c = false) :
    NoBlankLine (broken width e text) := by
  refine noBlankLine_flatMap fun line hline => ⟨(of_mem_rows hline).1, fun c hc => ?_⟩
  have hblank := h c ((of_mem_rows hline).2 hc)
  constructor
  · rintro rfl
    exact absurd hblank (by decide)
  · rintro rfl
    exact absurd hblank (by decide)

/-- In a text without blank lines no search for one finds it. -/
theorem NoBlankLine.seek_eq_none (h : NoBlankLine text) :
    Text.seek ['\n', '\n'] text = none ∧ Text.seek ['\r', '\n', '\r', '\n'] text = none := by
  constructor
  · -- a line feed that another one follows
    refine Text.seek_eq_none fun hsub => ?_
    have hchain := List.IsChain.infix h hsub
    simp at hchain
  · -- and one that a CR follows
    refine Text.seek_eq_none fun hsub => ?_
    have hchain := List.IsChain.infix h hsub
    simp at hchain

/-! ### Data -/

/-- A text that can be broken into lines and told from the marks. -/
structure IsData (text : List Char) : Prop where
  blankless : ∀ c ∈ text, Text.isBlank c = false
  dashless : '-' ∉ text

/-- Padded base64 is such a text. -/
theorem isData_encodePadded (bs : Bytes) :
    IsData (Base64.encodePadded Base64.standard bs) := by
  have hsymbols : ∀ n < 64, Text.isBlank (Base64.standard.symbol n) = false := by decide
  refine ⟨fun c hc => ?_, Base64.dash_not_mem_encodePadded bs⟩
  rcases Base64.mem_encodePadded hc with ⟨n, hn, rfl⟩ | rfl
  · exact hsymbols n hn
  · rfl

/-! ### The block is found -/

/-- A text behind which the first mark is found: it does not hold the mark, and ends with its last
line, if it has any. -/
structure IsPreamble (text : List Char) : Prop where
  /-- The last line is ended. -/
  ended : text = [] ∨ text.getLast? = some '\n'
  unmarked : ¬beginMark <:+: text

/-- The first mark is found behind a preamble. -/
theorem IsPreamble.seek_beginMark (h : IsPreamble preamble) (rest : List Char) :
    Text.seek beginMark (preamble ++ (beginMark ++ rest)) = some (preamble, rest) := by
  rcases h.ended with rfl | hlast
  · exact Text.seekFrom_mark (by decide)
  · -- the line feed at the end is no character of the mark, so the search starts afresh behind it
    obtain ⟨before, rfl⟩ := List.getLast?_eq_some_iff.mp hlast
    have hbefore : ¬beginMark <:+: before := fun hsub =>
      h.unmarked (hsub.trans (List.prefix_append before ['\n']).isInfix)
    rw [List.append_assoc]
    exact Text.seek_past (by decide) (by decide) hbefore

/-- A label ends at the first dash. -/
theorem seek_dashes (h : '-' ∉ label) (rest : List Char) :
    Text.seek dashes (label ++ (dashes ++ rest)) = some (label, rest) :=
  Text.seek_append h

/-- Data without a dash ends where the last mark begins. -/
theorem seek_endMark (h : '-' ∉ text) (rest : List Char) :
    Text.seek endMark (text ++ (endMark ++ rest)) = some (text, rest) :=
  Text.seek_append h

namespace Lenient

/-- What is dropped in front of the data is white space. -/
theorem isBlank_of_isGap (h : isGap c = true) : Text.isBlank c = true := by
  simp only [isGap, Bool.or_eq_true, decide_eq_true_eq] at h
  rcases h with ((rfl | rfl) | rfl) | rfl <;> decide

/-- Only the end of the first line is dropped before the data. -/
theorem dropWhile_isGap (hwidth : 0 < width) (h : ∀ c ∈ data, Text.isBlank c = false)
    (rest : List Char) :
    (e.chars ++ (broken width e data ++ (endMark ++ rest))).dropWhile isGap =
      broken width e data ++ (endMark ++ rest) := by
  have hend : ∀ c ∈ e.chars, isGap c = true := by cases e <;> simp [LineEnd.chars, isGap]
  rw [List.dropWhile_append_of_pos hend]
  rcases data with _ | ⟨c, cs⟩
  -- without data the closing mark comes next, and begins with no gap
  · rw [broken, rows_nil]
    rfl
  · obtain ⟨more, hmore⟩ := exists_broken_cons hwidth e c cs
    have hc : isGap c ≠ true := by
      intro hgap
      have hblank := h c List.mem_cons_self
      rw [isBlank_of_isGap hgap] at hblank
      exact absurd hblank (by decide)
    rw [hmore, List.cons_append, List.dropWhile_cons_of_neg hc]

/-- The block of an armored text. -/
def block (label : List Char) (width : Nat) (e : LineEnd) (data : List Char) : Frame where
  label := label
  body := broken width e data
  endLabel := label

/-- **The first block is the one that was put on**, whatever follows it. -/
theorem frame?_armor (hpreamble : IsPreamble preamble) (hwidth : 0 < width) (hdata : IsData data)
    (hlabel : '-' ∉ label) (rest : List Char) :
    frame? (preamble ++ (armor label width e data ++ rest)) = some (block label width e data) := by
  -- the closing mark is the first dash behind the data
  have hbody : '-' ∉ broken width e data := fun hmem => by
    rcases mem_broken hmem with hmem | hmem
    · exact hdata.dashless hmem
    · revert hmem
      cases e <;> decide
  have htext : preamble ++ (armor label width e data ++ rest) =
      preamble ++ (beginMark ++ (label ++ (dashes ++ (e.chars ++ (broken width e data ++
        (endMark ++ (label ++ (dashes ++ rest)))))))) := by
    simp [armor]
  rw [htext, frame?, hpreamble.seek_beginMark]
  simp [seek_dashes hlabel, dropWhile_isGap hwidth hdata.blankless, seek_endMark hbody, block]

/-- The block of an armored text has no headers, as no line of it is blank. -/
theorem split_block (hdata : IsData data) :
    (block label width e data).split = ([], broken width e data) := by
  obtain ⟨hlf, hcrlf⟩ := (noBlankLine_broken width e hdata.blankless).seek_eq_none
  simp [Frame.split, block, hlf, hcrlf]

/-- **The data of a block is what was armored.** -/
theorem data_block (hwidth : 0 < width) (hdata : IsData data) :
    (block label width e data).data = data := by
  rw [Frame.data, split_block hdata]
  exact filter_broken hwidth hdata.blankless

/-- No header in the block of an armored text is bad, as there is none. -/
theorem badHeader?_block (hdata : IsData data) :
    (block label width e data).badHeader? = none := by
  rw [Frame.badHeader?, split_block hdata]
  rfl

/-- **The armor comes off**: the bytes of the first block are those that were armored. -/
theorem decode_armor (hpreamble : IsPreamble preamble) (hwidth : 0 < width) (hlabel : '-' ∉ label)
    (hne : label ≠ []) (e : LineEnd) (bs : Bytes) (rest : List Char) :
    decode (String.ofList (preamble ++
      (armor label width e (Base64.encodePadded Base64.standard bs) ++ rest))) =
        .ok (String.ofList label, bs) := by
  have hdata := isData_encodePadded bs
  rw [decode, String.toList_ofList, frame?_armor hpreamble hwidth hdata hlabel]
  -- the frame is the block, so its data is the encoding, and decodes to the bytes
  simp only [Frame.decode, data_block hwidth hdata, badHeader?_block hdata,
    Base64.decode_encodePadded]
  simp [block, hne, Except.mapError, pure, Except.pure, bind, Except.bind]

end Lenient

end TokenForge.Pem

namespace TokenForge.Certificate

open Pem

/-- **Armor is undone exactly.** A certificate in a text that begins with a preamble stands in a
token as the padded base64 of its bytes, whatever the bytes are, however wide the lines of the text
are, whatever they end in, and whatever the name of the text is. -/
theorem body_armor {preamble : List Char} (hpreamble : IsPreamble preamble) {width : Nat}
    (hwidth : 0 < width) (e : LineEnd) (bs : Bytes) (source : String) :
    body (String.ofList (preamble ++
      armor label.toList width e (Base64.encodePadded Base64.standard bs))) source =
        .ok (String.ofList (Base64.encodePadded Base64.standard bs)) := by
  have hlabel : '-' ∉ label.toList := by decide
  have hne : label.toList ≠ [] := by decide
  have hdecode := Lenient.decode_armor hpreamble hwidth hlabel hne e bs []
  rw [List.append_nil] at hdecode
  rw [body, hdecode]
  simp

/-- A preamble with the first part of a mark, and lines that part the padding from its quad. -/
theorem body_armor_remark :
    IsPreamble "a -----BEGIN\n".toList ∧ 0 < 3 ∧
      body ("a -----BEGIN\n" ++
        "-----BEGIN CERTIFICATE-----\r\nAQI\r\nDBA\r\n==\r\n-----END CERTIFICATE-----") "a.pem" =
          .ok "AQIDBA==" := by
  have hpreamble : IsPreamble "a -----BEGIN\n".toList := ⟨by decide, by decide +kernel⟩
  have hwidth : 0 < 3 := by decide
  have hdata : Base64.encodePadded Base64.standard [1, 2, 3, 4] = "AQIDBA==".toList := by decide
  have htext : armor label.toList 3 .crlf "AQIDBA==".toList =
      "-----BEGIN CERTIFICATE-----\r\nAQI\r\nDBA\r\n==\r\n-----END CERTIFICATE-----".toList := by
    have hrows : rows 3 "AQIDBA==".toList = [['A', 'Q', 'I'], ['D', 'B', 'A'], ['=', '=']] := by
      simp [rows_of_pos]
    rw [armor, broken, hrows]
    decide
  have hbody := body_armor hpreamble hwidth .crlf [1, 2, 3, 4] "a.pem"
  rw [hdata, htext, ← String.toList_append, String.ofList_toList, String.ofList_toList] at hbody
  exact ⟨hpreamble, hwidth, hbody⟩

end TokenForge.Certificate
