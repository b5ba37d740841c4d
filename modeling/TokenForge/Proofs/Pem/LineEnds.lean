import TokenForge.Proofs.Pem.Verbatim

/-!
# Line ends do not matter to a certificate

If every line feed of a text is written CR LF, the lenient reader finds the same block, with the same
headers and data, and what it says of the block is the same (`Lenient.decode_withCrlf`). A blank line
is then a different mark, and is found in the same place. So a certificate is read from both texts or
from neither, and is the same (`Certificate.body_withCrlf`).

* `Text.withCrlf` — a text with CR LF for every line feed;
* `Text.seek_withCrlf`, `Text.seek_blankLine` — searches in such a text;
* `Text.lines_withCrlf` — its lines;
* `Lenient.frame?_withCrlf`, `Lenient.split_withCrlf` — its first block, and the parts of the block.
-/

namespace TokenForge

namespace Text

/-- **A text with CR LF for every line feed.** -/
def withCrlf (text : List Char) : List Char :=
  text.flatMap fun c => if c = '\n' then ['\r', '\n'] else [c]

variable {text read mark done due other : List Char} {c : Char}

@[simp] theorem withCrlf_nil : withCrlf [] = [] := rfl

theorem withCrlf_lf (text : List Char) : withCrlf ('\n' :: text) = '\r' :: '\n' :: withCrlf text :=
  rfl

theorem withCrlf_cons (hc : c ≠ '\n') (text : List Char) :
    withCrlf (c :: text) = c :: withCrlf text := by
  rw [withCrlf, List.flatMap_cons, if_neg hc]
  rfl

theorem withCrlf_append (text other : List Char) :
    withCrlf (text ++ other) = withCrlf text ++ withCrlf other :=
  List.flatMap_append

/-- A text on one line stays as it is. -/
theorem withCrlf_of_not_mem (h : '\n' ∉ text) : withCrlf text = text := by
  induction text with
  | nil => rfl
  | cons c cs ih =>
    rw [List.mem_cons, not_or] at h
    rw [withCrlf_cons (Ne.symm h.1), ih h.2]

/-- Nothing is added but CRs, so a filter that drops them leaves what it leaves of the text. -/
theorem filter_withCrlf {p : Char → Bool} (hp : p '\r' = false) (text : List Char) :
    (withCrlf text).filter p = text.filter p := by
  induction text with
  | nil => rfl
  | cons c cs ih =>
    by_cases hc : c = '\n'
    · rw [hc, withCrlf_lf, List.filter_cons_of_neg (by simp [hp]), List.filter_cons, ih,
        List.filter_cons]
    · rw [withCrlf_cons hc, List.filter_cons, ih, List.filter_cons]

/-- **Texts without CRs can be told apart** by what becomes of them. -/
theorem withCrlf_inj (htext : '\r' ∉ text) (hother : '\r' ∉ other) :
    withCrlf text = withCrlf other ↔ text = other := by
  -- without its CRs each text is what it was
  have hkept {cs : List Char} (hcs : '\r' ∉ cs) : (withCrlf cs).filter (· ≠ '\r') = cs := by
    rw [filter_withCrlf (by simp), List.filter_eq_self]
    intro c hc
    simpa using ne_of_mem_of_not_mem hc hcs
  refine ⟨fun h => ?_, congrArg withCrlf⟩
  rw [← hkept htext, h, hkept hother]

/-- A line feed is never the first character. -/
theorem withCrlf_ne_lf_cons (text rest : List Char) : withCrlf text ≠ '\n' :: rest := by
  cases text with
  | nil => simp
  | cons c cs =>
    by_cases hc : c = '\n'
    · simp [hc, withCrlf_lf]
    · simp [withCrlf_cons hc, hc]

/-! ### Searches -/

/-- The invariant of a search for a mark on one line: `done` is what was read of the mark, `read` is
what was read before, and both searches have the same part of the mark left. -/
theorem seekFrom_withCrlf (hlf : '\n' ∉ mark) (hcr : '\r' ∉ mark) (hmark : done ++ due = mark) :
    seekFrom mark due (done.reverse ++ (withCrlf read).reverse) (withCrlf text) =
      (seekFrom mark due (done.reverse ++ read.reverse) text).map
        fun parts => (withCrlf parts.1, withCrlf parts.2) := by
  have hdone : withCrlf done = done :=
    withCrlf_of_not_mem fun h => hlf (hmark ▸ List.mem_append_left due h)
  -- where the search starts afresh, all that was read counts as read before
  have hread (c : Char) : c :: (done.reverse ++ read.reverse) =
      [].reverse ++ (read ++ (done ++ [c])).reverse := by simp
  induction text generalizing done due read with
  | nil => simp
  | cons c cs ih =>
    rcases due with _ | ⟨d, due⟩
    · by_cases hc : c = '\n'
      · simp [hc, withCrlf_lf, seekFrom]
      · simp [withCrlf_cons hc, seekFrom]
    have hd : d ∈ mark := hmark ▸ List.mem_append_right done List.mem_cons_self
    by_cases hc : c = '\n'
    -- neither CR nor LF is a character of the mark
    · subst hc
      obtain ⟨m, ms, hms⟩ := List.exists_cons_of_ne_nil (List.ne_nil_of_mem hd)
      have hm : m ∈ mark := hms ▸ List.mem_cons_self
      have hskip (r : List Char) : seekFrom mark mark r ('\n' :: withCrlf cs) =
          seekFrom mark mark ('\n' :: r) (withCrlf cs) := by
        conv_lhs => rw [hms]
        conv_rhs => rw [hms]
        exact seekFrom_of_ne (ne_of_mem_of_not_mem hm hlf).symm
      have hboth : '\n' :: '\r' :: (done.reverse ++ (withCrlf read).reverse) =
          [].reverse ++ (withCrlf (read ++ (done ++ ['\n']))).reverse := by
        simp [withCrlf_append, hdone, withCrlf_lf]
      rw [withCrlf_lf, seekFrom_of_ne (ne_of_mem_of_not_mem hd hcr).symm, hskip, hboth,
        seekFrom_of_ne (ne_of_mem_of_not_mem hd hlf).symm, hread]
      exact ih (List.nil_append mark) rfl (fun c => by simp)
    rw [withCrlf_cons hc]
    by_cases hcd : c = d
    · subst hcd
      rcases due with _ | ⟨e, due⟩
      -- the mark is complete, so `done` is all of it but its last character
      · have hlength : mark.length - 1 = done.reverse.length := by rw [← hmark]; simp
        rw [seekFrom_last, seekFrom_last, hlength, List.drop_left, List.drop_left]
        simp
      · have hnext (r : List Char) : c :: (done.reverse ++ r) = (done ++ [c]).reverse ++ r := by simp
        rw [seekFrom_more, seekFrom_more, hnext, hnext]
        have hmore : (done ++ [c]) ++ e :: due = mark := by rw [← hmark]; simp
        refine ih hmore (withCrlf_of_not_mem fun h => hlf ?_) (fun c => by simp)
        exact hmore ▸ List.mem_append_left _ h
    · have hboth : c :: (done.reverse ++ (withCrlf read).reverse) =
          [].reverse ++ (withCrlf (read ++ (done ++ [c]))).reverse := by
        simp [withCrlf_append, hdone, withCrlf_cons hc]
      rw [seekFrom_of_ne hcd, seekFrom_of_ne hcd, hboth, hread]
      exact ih (List.nil_append mark) rfl (fun c => by simp)

/-- **A mark on one line is found in the same place.** -/
theorem seek_withCrlf (hlf : '\n' ∉ mark) (hcr : '\r' ∉ mark) (text : List Char) :
    seek mark (withCrlf text) =
      (seek mark text).map fun parts => (withCrlf parts.1, withCrlf parts.2) :=
  @seekFrom_withCrlf text [] mark [] mark hlf hcr (List.nil_append mark)

/-- There is a CR between any two line feeds. -/
theorem seek_lf_lf_withCrlf (text : List Char) : seek ['\n', '\n'] (withCrlf text) = none := by
  refine seek_eq_none ?_
  induction text with
  | nil => simp
  | cons c cs ih =>
    by_cases hc : c = '\n'
    · have hnext : ¬['\n'] <+: withCrlf cs := by
        rintro ⟨rest, hrest⟩
        exact withCrlf_ne_lf_cons cs rest hrest.symm
      simp [hc, withCrlf_lf, List.infix_cons_iff, hnext, ih]
    · simp [withCrlf_cons hc, List.infix_cons_iff, Ne.symm hc, ih]

/-- The invariant of a search for a blank line: either nothing of it was read, or its first line
end. -/
theorem seekFrom_blankLine (h : '\r' ∉ text) :
    seekFrom ['\r', '\n', '\r', '\n'] ['\r', '\n', '\r', '\n'] (withCrlf read).reverse
        (withCrlf text) =
      (seekFrom ['\n', '\n'] ['\n', '\n'] read.reverse text).map
        (fun parts => (withCrlf parts.1, withCrlf parts.2)) ∧
    seekFrom ['\r', '\n', '\r', '\n'] ['\r', '\n'] ('\n' :: '\r' :: (withCrlf read).reverse)
        (withCrlf text) =
      (seekFrom ['\n', '\n'] ['\n'] ('\n' :: read.reverse) text).map
        (fun parts => (withCrlf parts.1, withCrlf parts.2)) := by
  induction text generalizing read with
  | nil => simp
  | cons c cs ih =>
    rw [List.mem_cons, not_or] at h
    by_cases hc : c = '\n'
    · subst hc
      rw [withCrlf_lf]
      -- a line end found, and a second one behind it
      constructor
      · rw [seekFrom_more, seekFrom_more, seekFrom_more]
        exact (ih h.2).2
      · rw [seekFrom_more, seekFrom_last, seekFrom_last]
        simp
    · -- any other character starts the search afresh, whatever was read
      rw [withCrlf_cons hc]
      have hcr : c ≠ '\r' := Ne.symm h.1
      constructor
      · have hboth : c :: (withCrlf read).reverse = (withCrlf (read ++ [c])).reverse := by
          simp [withCrlf_append, withCrlf_cons hc]
        have hread : c :: read.reverse = (read ++ [c]).reverse := by simp
        rw [seekFrom_of_ne hcr, seekFrom_of_ne hc, hboth, hread]
        exact (ih h.2).1
      · have hboth : c :: '\n' :: '\r' :: (withCrlf read).reverse =
            (withCrlf (read ++ ['\n', c])).reverse := by
          simp [withCrlf_append, withCrlf_lf, withCrlf_cons hc]
        have hread : c :: '\n' :: read.reverse = (read ++ ['\n', c]).reverse := by simp
        rw [seekFrom_of_ne hcr, seekFrom_of_ne hc, hboth, hread]
        exact (ih h.2).1

/-- **A blank line is found in the same place**, though it is a different mark. -/
theorem seek_blankLine (h : '\r' ∉ text) :
    seek ['\r', '\n', '\r', '\n'] (withCrlf text) =
      (seek ['\n', '\n'] text).map fun parts => (withCrlf parts.1, withCrlf parts.2) :=
  (@seekFrom_blankLine text [] h).1

/-! ### Lines -/

theorem dropCr_of_not_mem (h : '\r' ∉ text) : dropCr text = text := by
  refine if_neg fun hlast => h ?_
  exact List.mem_of_getLast? hlast

/-- The lines of a text, from the middle of one on. -/
theorem linesFrom_withCrlf (hread : '\r' ∉ read) (htext : '\r' ∉ text) :
    linesFrom read (withCrlf text) = linesFrom read text := by
  induction text generalizing read with
  | nil => rfl
  | cons c cs ih =>
    rw [List.mem_cons, not_or] at htext
    by_cases hc : c = '\n'
    -- the CR that was added is at the end of the line, and is dropped with it
    · have hkept : dropCr read.reverse = read.reverse :=
        dropCr_of_not_mem (by rwa [List.mem_reverse])
      have hadded : dropCr ('\r' :: read).reverse = dropCr read.reverse := by
        rw [hkept, List.reverse_cons, dropCr, if_pos List.getLast?_concat, List.dropLast_concat]
      rw [hc, withCrlf_lf, linesFrom, if_neg (by decide), linesFrom, if_pos rfl, linesFrom,
        if_pos rfl, hadded, ih List.not_mem_nil htext.2]
    · rw [withCrlf_cons hc, linesFrom, if_neg hc, linesFrom, if_neg hc]
      exact ih (List.not_mem_cons_of_ne_of_not_mem htext.1 hread) htext.2

/-- **The lines of a text stay as they are.** -/
theorem lines_withCrlf (h : '\r' ∉ text) : lines (withCrlf text) = lines text :=
  linesFrom_withCrlf List.not_mem_nil h

end Text

namespace Pem.Lenient

open Text (withCrlf)

variable {text : List Char} {f : Frame}

/-! ### The first block -/

/-- A block with CR LF for every line feed. -/
def Frame.withCrlf (f : Frame) : Frame where
  label := Text.withCrlf f.label
  body := Text.withCrlf f.body
  endLabel := Text.withCrlf f.endLabel

/-- White space in front of the data is dropped with its line ends. -/
theorem dropWhile_isGap_withCrlf (text : List Char) :
    (withCrlf text).dropWhile isGap = withCrlf (text.dropWhile isGap) := by
  induction text with
  | nil => rfl
  | cons c cs ih =>
    by_cases hc : c = '\n'
    · rw [hc, Text.withCrlf_lf, List.dropWhile_cons_of_pos (by decide),
        List.dropWhile_cons_of_pos (by decide), List.dropWhile_cons_of_pos (by decide), ih]
    · by_cases hgap : isGap c = true
      · rw [Text.withCrlf_cons hc, List.dropWhile_cons_of_pos hgap, List.dropWhile_cons_of_pos hgap,
          ih]
      · rw [List.dropWhile_cons_of_neg hgap, Text.withCrlf_cons hc,
          List.dropWhile_cons_of_neg hgap]

/-- **The first block is the same**, but for its line ends. -/
theorem frame?_withCrlf (text : List Char) :
    frame? (withCrlf text) = (frame? text).map Frame.withCrlf := by
  -- each of the four searches is for a mark on one line
  have hbegin := @Text.seek_withCrlf beginMark (by decide) (by decide)
  have hdashes := @Text.seek_withCrlf dashes (by decide) (by decide)
  have hend := @Text.seek_withCrlf endMark (by decide) (by decide)
  rw [frame?, frame?, hbegin]
  rcases Text.seek beginMark text with _ | ⟨_, afterBegin⟩
  · rfl
  dsimp only [Option.map_some, Option.bind_eq_bind, Option.bind_some]
  rw [hdashes]
  rcases Text.seek dashes afterBegin with _ | ⟨label, afterLabel⟩
  · rfl
  dsimp only [Option.map_some, Option.bind_eq_bind, Option.bind_some]
  rw [dropWhile_isGap_withCrlf, hend]
  rcases Text.seek endMark (afterLabel.dropWhile isGap) with _ | ⟨body, afterBody⟩
  · rfl
  dsimp only [Option.map_some, Option.bind_eq_bind, Option.bind_some]
  rw [hdashes]
  rcases Text.seek dashes afterBody with _ | ⟨endLabel, _⟩ <;> rfl

/-- A block is made of characters of the text. -/
theorem cr_not_mem_of_frame? (h : frame? text = some f) (htext : '\r' ∉ text) :
    '\r' ∉ f.label ∧ '\r' ∉ f.body ∧ '\r' ∉ f.endLabel := by
  obtain ⟨p, hplace, -⟩ := frame?_eq_some h
  rw [hplace, Place.fill] at htext
  simp only [List.mem_append, not_or] at htext
  exact ⟨htext.2.2.1, htext.2.2.2.2.2.1, htext.2.2.2.2.2.2.2.1⟩

/-- **The headers and the data are the same**, but for their line ends. -/
theorem split_withCrlf (h : '\r' ∉ f.body) :
    f.withCrlf.split = (withCrlf f.split.1, withCrlf f.split.2) := by
  unfold Frame.split
  rw [Frame.withCrlf, Text.seek_lf_lf_withCrlf, Text.seek_blankLine h]
  cases hlf : Text.seek ['\n', '\n'] f.body with
  | some parts => rfl
  -- without a CR there is no blank line of the other kind either
  | none =>
    have hcrlf : Text.seek ['\r', '\n', '\r', '\n'] f.body = none :=
      Text.seek_eq_none fun hmark => h (hmark.subset List.mem_cons_self)
    rw [hcrlf]
    rfl

/-- Headers and data are made of characters of the body. -/
theorem cr_not_mem_split (h : '\r' ∉ f.body) : '\r' ∉ f.split.1 := by
  rcases split_cases f with hsplit | ⟨headers, data, mark, hsplit, hparts, -⟩
  · simp [hsplit]
  · rw [hsplit]
    exact fun hmem => h (hparts ▸ List.mem_append_left _ hmem)

/-- The data is the same, as it is kept without white space. -/
theorem data_withCrlf (h : '\r' ∉ f.body) : f.withCrlf.data = f.data := by
  rw [Frame.data, Frame.data, split_withCrlf h, Text.filter_withCrlf (by decide)]

/-- The bad header is the same, as it is looked for in lines. -/
theorem badHeader?_withCrlf (h : '\r' ∉ f.body) : f.withCrlf.badHeader? = f.badHeader? := by
  rw [Frame.badHeader?, Frame.badHeader?, split_withCrlf h,
    Text.lines_withCrlf (cr_not_mem_split h)]

/-! ### What is decoded -/

/-- A label with CR LF for every line feed. -/
def labelWithCrlf (label : String) : String := String.ofList (withCrlf label.toList)

/-- A fault with CR LF for every line feed: only labels have any. -/
def Fault.withCrlf : Fault → Fault
  | .labelsDiffer first last => .labelsDiffer (labelWithCrlf first) (labelWithCrlf last)
  | fault => fault

theorem labelWithCrlf_ofList (label : List Char) :
    labelWithCrlf (String.ofList label) = String.ofList (withCrlf label) := by
  rw [labelWithCrlf, String.toList_ofList]

/-- A text is empty exactly if it was. -/
theorem withCrlf_eq_nil_iff {label : List Char} : withCrlf label = [] ↔ label = [] := by
  cases label with
  | nil => simp
  | cons c cs =>
    by_cases hc : c = '\n'
    · simp [hc, Text.withCrlf_lf]
    · simp [Text.withCrlf_cons hc]

/-- **A block is decoded to the same bytes**, or has the same fault. -/
theorem Frame.decode_withCrlf (hlabel : '\r' ∉ f.label) (hbody : '\r' ∉ f.body)
    (hend : '\r' ∉ f.endLabel) :
    f.withCrlf.decode =
      (f.decode.map fun found => (labelWithCrlf found.1, found.2)).mapError Fault.withCrlf := by
  have hsame : f.withCrlf.label = f.withCrlf.endLabel ↔ f.label = f.endLabel :=
    Text.withCrlf_inj hlabel hend
  have hnoLabel : f.withCrlf.label = [] ↔ f.label = [] := withCrlf_eq_nil_iff
  have hnoEnd : f.withCrlf.endLabel = [] ↔ f.endLabel = [] := withCrlf_eq_nil_iff
  rw [Frame.decode, Frame.decode, data_withCrlf hbody, badHeader?_withCrlf hbody]
  simp only [ne_eq, hsame, hnoLabel, hnoEnd]
  -- check by check; a fault that one finds is the fault that the other finds
  split
  · rfl
  split
  · rfl
  split
  · simp only [Frame.withCrlf, ← labelWithCrlf_ofList]
    rfl
  cases hdata : Base64.decode (Utf8.encode f.data) with
  | error fault => rfl
  | ok bytes =>
    cases f.badHeader? with
    | some line => rfl
    | none =>
      simp only [Frame.withCrlf, ← labelWithCrlf_ofList]
      rfl

/-- **A text is decoded to the same bytes**, or has the same fault. -/
theorem decode_withCrlf {text : String} (h : '\r' ∉ text.toList) :
    decode (String.ofList (withCrlf text.toList)) =
      ((decode text).map fun found => (labelWithCrlf found.1, found.2)).mapError
        Fault.withCrlf := by
  rw [decode, decode, String.toList_ofList, frame?_withCrlf]
  cases hframe : frame? text.toList with
  | none => rfl
  | some f =>
    obtain ⟨hlabel, hbody, hend⟩ := cr_not_mem_of_frame? hframe h
    exact Frame.decode_withCrlf hlabel hbody hend

/-- What a block is labelled with is made of characters of the text. -/
theorem cr_not_mem_label {text label : String} {bytes : Bytes} (h : '\r' ∉ text.toList)
    (hdecode : decode text = .ok (label, bytes)) : '\r' ∉ label.toList := by
  obtain ⟨f, hframe, hblock⟩ := decode_eq_ok hdecode
  rw [← (Frame.decode_eq_ok hblock).1, String.toList_ofList]
  exact (cr_not_mem_of_frame? hframe h).1

end Pem.Lenient

namespace Certificate

open Text (withCrlf)
open Pem.Lenient

/-- The label of certificates is on one line, and no other label becomes it. -/
theorem labelWithCrlf_eq_iff {found : String} (h : '\r' ∉ found.toList) :
    labelWithCrlf found = label ↔ found = label := by
  have hlabel : withCrlf label.toList = label.toList := Text.withCrlf_of_not_mem (by decide)
  rw [← String.toList_inj, labelWithCrlf, String.toList_ofList, ← hlabel,
    Text.withCrlf_inj h (by decide), String.toList_inj]

/-- **Line ends do not matter to a certificate.** A text without CRs, and the same text with CR LF for
every line feed, give the same certificate or none; and if none, they fail for causes of one kind. -/
theorem body_withCrlf {text : String} (h : '\r' ∉ text.toList) (source : String) :
    (∀ r, body text source = .ok r ↔
      body (String.ofList (withCrlf text.toList)) source = .ok r) ∧
    ∀ e e', body text source = .error e →
      body (String.ofList (withCrlf text.toList)) source = .error e' → e.name = e'.name := by
  have hdecode := decode_withCrlf h
  cases hfound : decode text with
  -- both are refused, and the fault of the one is that of the other
  | error fault =>
    rw [hfound] at hdecode
    have hbody : body text source = .error (.certificateUndecoded source fault.message) := by
      rw [body, hfound]
    have hother : body (String.ofList (withCrlf text.toList)) source =
        .error (.certificateUndecoded source fault.withCrlf.message) := by
      rw [body, hdecode]
      rfl
    rw [hbody, hother]
    refine ⟨by simp, ?_⟩
    rintro _ _ ⟨⟩ ⟨⟩
    rfl
  -- both have the same bytes, and a label that is or is not that of certificates
  | ok block =>
    obtain ⟨found, bytes⟩ := block
    have hother : decode (String.ofList (withCrlf text.toList)) =
        .ok (labelWithCrlf found, bytes) := by
      rw [hdecode, hfound]
      rfl
    simp only [body, hfound, hother, labelWithCrlf_eq_iff (cr_not_mem_label h hfound)]
    split
    · exact ⟨fun r => Iff.rfl, by rintro _ _ ⟨⟩⟩
    · refine ⟨by simp, ?_⟩
      rintro _ _ ⟨⟩ ⟨⟩
      rfl

/-- A certificate file with text around the block, a header, a blank line and another in the data. -/
def spaced : String :=
  "x\n-----BEGIN CERTIFICATE-----\n\n a: b\nc: d\n\nAQ\n\n==\n-----END CERTIFICATE-----\ny\n"

/-- The certificate of `spaced` is read with CR LF as well. -/
theorem body_withCrlf_spaced :
    '\r' ∉ spaced.toList ∧
      body (String.ofList (withCrlf spaced.toList)) "a.pem" = .ok "AQ==" := by
  have hcr : '\r' ∉ spaced.toList := by decide +kernel
  have hbody : body spaced "a.pem" = .ok "AQ==" := by decide
  exact ⟨hcr, ((body_withCrlf hcr "a.pem").1 "AQ==").mp hbody⟩

end Certificate

end TokenForge
