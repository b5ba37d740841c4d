import TokenForge.Proofs.Json.Delimited
import TokenForge.Proofs.Json.Integers

/-!
# Payloads that are cut off

What is left of a payload when its end is cut off is refused for its end, or it is the same payload
with less white space behind it. There is one exception: a number that is cut can be out of range
although the whole number is not, as its exponent may be what made it small. Then the text is
refused for that number.

* `State.finish_eq_error` — for what a text may be refused at its end;
* `State.feed_number_eq_ok` — a number that has begun goes on to a number in range;
* `CutsNumber` — a cut goes through a number, whose first part is out of range while the whole of it
  is not;
* `Payload.read_truncated` — what becomes of the beginnings of a payload.
-/

namespace TokenForge

namespace Json

/-! ### The end of the text -/

/-- A numeral is refused at its end for ending there, or for its size. -/
theorem Numeral.finish_eq_error {n : Numeral} {cause : Cause} (h : n.finish = .error cause) :
    cause.isEnd = true ∨ cause = .numberOutOfRange := by
  cases n with
  | zero negative => exact .inr (Literal.whole_eq_error h)
  | digits negative s => exact .inr (Literal.whole_eq_error h)
  | long negative s p => exact .inr (Literal.real_eq_error h)
  | fraction negative s p => exact .inr (Literal.real_eq_error h)
  | dropped negative s p => exact .inr (Literal.real_eq_error h)
  | exponent negative s p down e => exact .inr (Literal.real_eq_error h)
  | vanishing negative => exact absurd h (by simp [finish])
  -- behind a sign, a point or a mark the numeral goes on
  | minus => exact .inl (by rw [← Except.error.inj h]; rfl)
  | point negative s p => exact .inl (by rw [← Except.error.inj h]; rfl)
  | mark negative s p => exact .inl (by rw [← Except.error.inj h]; rfl)
  | sign negative s p down => exact .inl (by rw [← Except.error.inj h]; rfl)

/-- Outside numbers a text is refused at its end only for ending there. -/
theorem Mode.ended_eq_error {mode : Mode} {cause : Cause} (h : mode.ended = .error cause) :
    cause.isEnd = true := by
  cases mode with
  | done v => exact absurd h (by simp [Mode.ended])
  | _ =>
    rw [← Except.error.inj h]
    rfl

namespace State

variable {s t u : State} {stack : List Frame} {p q : List Char} {c : Char} {v w : Value}
  {n : Numeral} {x : Number} {cause : Cause}

/-- A number that the text ends in counts as complete. -/
theorem finish_number (h : n.finish = .ok x) :
    finish ⟨.number n, stack⟩ = (complete (.number x) stack).mode.ended := by
  simp only [finish, h, bind, Except.bind]

/-- For the fault of the number that it ends in a text is refused. -/
theorem finish_number_of_error (h : n.finish = .error cause) :
    finish ⟨.number n, stack⟩ = .error cause := by
  simp only [finish, h, bind, Except.bind]

/-- Outside numbers it is the mode that decides at the end. -/
theorem finish_of_not_number (h : ∀ n, s.mode ≠ .number n) : s.finish = s.mode.ended := by
  obtain ⟨mode, stack⟩ := s
  cases mode with
  | number n => exact absurd rfl (h n)
  | _ => rfl

/-- **A text is refused at its end** for ending there, or for the number that it ends in. -/
theorem finish_eq_error (h : s.finish = .error cause) :
    cause.isEnd = true ∨ cause = .numberOutOfRange ∧
      ∃ n stack, s = ⟨.number n, stack⟩ ∧ n.finish = .error .numberOutOfRange := by
  by_cases hnumber : ∃ n, s.mode = .number n
  · obtain ⟨n, hmode⟩ := hnumber
    obtain ⟨mode, stack⟩ := s
    obtain rfl : mode = .number n := hmode
    cases hn : n.finish with
    | ok x =>
      rw [finish_number hn] at h
      exact .inl (Mode.ended_eq_error h)
    | error fault =>
      rw [finish_number_of_error hn] at h
      obtain rfl := Except.error.inj h
      refine (Numeral.finish_eq_error hn).imp_right fun hrange => ⟨hrange, n, stack, rfl, ?_⟩
      rw [hn, hrange]
  · rw [finish_of_not_number (not_exists.mp hnumber)] at h
    exact .inl (Mode.ended_eq_error h)

/-- **A text may end** behind its value, or in a number that is its value. -/
theorem finish_eq_ok (h : s.finish = .ok v) :
    s.mode = .done v ∨ ∃ n, s = ⟨.number n, []⟩ := by
  by_cases hnumber : ∃ n, s.mode = .number n
  · obtain ⟨n, hmode⟩ := hnumber
    obtain ⟨mode, stack⟩ := s
    obtain rfl : mode = .number n := hmode
    cases hn : n.finish with
    | error cause =>
      rw [finish_number_of_error hn] at h
      exact absurd h (by simp)
    | ok x =>
      rw [finish_number hn] at h
      cases stack with
      | nil => exact .inr ⟨n, rfl⟩
      | cons frame stack => cases frame <;> exact absurd h (by simp [complete, Mode.ended])
  · rw [finish_of_not_number (not_exists.mp hnumber)] at h
    cases hmode : s.mode with
    | done u =>
      rw [hmode] at h
      exact .inl (congrArg Mode.done (Except.ok.inj h))
    | _ =>
      rw [hmode] at h
      exact absurd h (by simp [Mode.ended])

/-! ### Behind a value -/

/-- **Behind the value of the text** there is nothing but white space. -/
theorem feed_done_eq_ok (h : feed ⟨.done v, stack⟩ q = .ok t) :
    Blank q ∧ t = ⟨.done v, stack⟩ := by
  induction q with
  | nil => exact ⟨.nil, (Except.ok.inj h).symm⟩
  | cons c q ih =>
    obtain ⟨u, hstep, hrest⟩ := feed_cons_eq_ok h
    rcases between_cases hstep with ⟨hc, rfl⟩ | hc
    · obtain ⟨hq, ht⟩ := ih hrest
      exact ⟨List.forall_mem_cons.mpr ⟨isSpace_iff.mp hc, hq⟩, ht⟩
    · -- a value is complete, so what is no white space is refused
      exact absurd hstep (by simp [step, between, hc])

/-- **A number goes on** until it is complete, and then it has a value in range. -/
theorem feed_number_eq_ok (h : feed ⟨.number n, stack⟩ q = .ok t) (ht : t.finish = .ok v) :
    ∃ more rest m x, q = more ++ rest ∧ n.feed more = some m ∧ m.finish = .ok x ∧
      ∃ u, feed (complete (.number x) stack) rest = .ok u ∧ u.finish = .ok v := by
  induction q generalizing n with
  | nil =>
    obtain rfl := Except.ok.inj h
    cases hn : n.finish with
    | error cause =>
      rw [finish_number_of_error hn] at ht
      exact absurd ht (by simp)
    | ok x =>
      rw [finish_number hn] at ht
      refine ⟨[], [], n, x, rfl, rfl, hn, _, rfl, ?_⟩
      rw [finish_of_not_number, ht]
      cases stack with
      | nil => simp [complete]
      | cons frame stack => cases frame <;> simp [complete]
  | cons c q ih =>
    obtain ⟨u, hstep, hrest⟩ := feed_cons_eq_ok h
    simp only [step] at hstep
    cases hc : n.step c with
    | more k =>
      rw [hc] at hstep
      obtain rfl := Except.ok.inj hstep
      obtain ⟨more, rest, m, x, rfl, hfeed, hm, hend⟩ := ih hrest
      exact ⟨c :: more, rest, m, x, rfl, (Numeral.feed_cons hc more).trans hfeed, hm, hend⟩
    | fault cause =>
      rw [hc] at hstep
      exact absurd hstep (by simp)
    | stop =>
      -- the number is complete before `c`
      rw [hc] at hstep
      cases hn : n.finish with
      | error cause =>
        rw [hn] at hstep
        exact absurd hstep (by simp)
      | ok x =>
        rw [hn] at hstep
        have hnext : (complete (.number x) stack).step c = .ok u :=
          (complete_step _ _ c).trans hstep
        exact ⟨[], c :: q, n, x, rfl, rfl, hn, t, (feed_cons hnext q).trans hrest, ht⟩

/-- **What a text goes on with when it could end already** is white space, unless its value is a
number. -/
theorem feed_of_finish_eq_ok (hs : s.finish = .ok w) (h : s.feed q = .ok t) (ht : t.finish = .ok v)
    (hv : v.isObject = true) : w = v ∧ Blank q := by
  rcases finish_eq_ok hs with hdone | ⟨n, rfl⟩
  · obtain ⟨mode, stack⟩ := s
    obtain rfl : mode = .done w := hdone
    obtain ⟨hq, rfl⟩ := feed_done_eq_ok h
    exact ⟨Except.ok.inj (hs.symm.trans ht), hq⟩
  · -- a number with more digits is still a number
    obtain ⟨more, rest, m, x, rfl, -, -, u, hrest, hu⟩ := feed_number_eq_ok h ht
    obtain ⟨-, rfl⟩ := feed_done_eq_ok hrest
    rw [← Except.ok.inj hu] at hv
    exact absurd hv (by simp [Value.isObject])

end State

/-- Characters that a numeral takes are spelled by what was read of it and by them. -/
theorem Numeral.Reads.feed {n m : Numeral} {t more : List Char} (hr : Reads t n)
    (h : n.feed more = some m) : Reads (t ++ more) m := by
  induction more generalizing t n with
  | nil =>
    obtain rfl := Option.some.inj h
    rwa [List.append_nil]
  | cons c more ih =>
    cases hc : n.step c with
    | more k =>
      rw [Numeral.feed_cons hc] at h
      have hreads := ih (hr.step hc) h
      rwa [List.append_assoc, List.singleton_append] at hreads
    | stop =>
      rw [Numeral.feed, hc] at h
      exact absurd h (by simp)
    | fault cause =>
      rw [Numeral.feed, hc] at h
      exact absurd h (by simp)

/-- What has been read of a numeral that is refused for its size, or is in range, is a literal. -/
theorem Numeral.Reads.exists_literal {n : Numeral} {t : List Char} (hr : Reads t n)
    (h : n.finish ≠ .error .endInValue) :
    ∃ l : Literal, t = l.text ∧ l.number? = n.finish.toOption := by
  cases hr with
  | @literal l _ hstate => exact ⟨l, rfl, (Literal.finish_state hstate).symm⟩
  | minus => exact absurd rfl h
  | point _ _ => exact absurd rfl h
  | mark _ => exact absurd rfl h
  | sign _ _ => exact absurd rfl h

/-! ### The beginnings of a text -/

/-- **A cut through a number** that is in range, which leaves a number that is not. In front of the
cut stands `l`, a complete literal; the number of the whole text is longer, with `more` of it behind
the cut. It is all of a number, as what stands in front of it and behind it may stand there. -/
inductive CutsNumber : List Char → List Char → Prop
  | mk {front more rest : List Char} {l whole : Literal} :
      MayPrecede front → whole.text = l.text ++ more → more ≠ [] → MayFollow rest →
        l.number? = none → whole.number?.isSome = true →
          CutsNumber (front ++ l.text) (more ++ rest)

/-- **A number that is out of range where the text is cut** is in range where it is not. -/
theorem cutsNumber_of_finish {q front t : List Char} {n : Numeral} {stack : List Frame} {s : State}
    {v : Value} (hfront : MayPrecede front) (hreads : Numeral.Reads t n)
    (hn : n.finish = .error .numberOutOfRange) (hq : State.feed ⟨.number n, stack⟩ q = .ok s)
    (hs : s.finish = .ok v) : CutsNumber (front ++ t) q := by
  -- what is in front of the cut is a literal, as it could end there but for its size
  obtain ⟨l, rfl, hl⟩ := hreads.exists_literal (by rw [hn]; simp)
  -- so is what it has become where it ends, and that has a value
  obtain ⟨more, rest, m, x, rfl, hfeed, hm, u, hrest, -⟩ := State.feed_number_eq_ok hq hs
  obtain ⟨whole, hwhole, hnumber⟩ := (hreads.feed hfeed).exists_literal (by rw [hm]; simp)
  have hmore : more ≠ [] := by
    rintro rfl
    obtain rfl := Option.some.inj hfeed
    rw [hn] at hm
    exact absurd hm (by simp)
  refine .mk hfront hwhole.symm hmore (State.mayFollow_of_feed hrest) ?_ ?_
  · rw [hl, hn]
    rfl
  · rw [hnumber, hm]
    rfl

/-- The faults at the end of a text begin alike. -/
theorem Cause.message_of_isEnd {cause : Cause} (h : cause.isEnd = true) :
    "EOF while parsing".toList <+: cause.message.toList := by
  cases cause <;> first | exact absurd h (by decide) | decide

end Json

open Json

namespace Payload

variable {raw : String} {p q : List Char} {v : Value}

/-- The wording of a fault begins with that of its cause. -/
theorem prefix_message {text : List Char} {fault : Json.Fault}
    (h : text <+: fault.cause.message.toList) : text <+: fault.message.toList := by
  rw [Json.Fault.message]
  simp only [String.toList_append, List.append_assoc]
  exact h.trans (List.prefix_append _ _)

/-- What is read as a payload is an object. -/
theorem isObject_of_read (h : read raw = .ok v) : v.isObject = true := by
  cases hobj : v.isObject with
  | true => rfl
  | false =>
    have hkind := read_of_not_isObject (json_read_of_read h) hobj
    exact absurd (h.symm.trans hkind) (by simp)

/-- **What is left of a payload that is cut.** It is the same payload, if nothing but white space
was cut off; else it is refused because it ends, or for a number that the cut has put out of
range. -/
theorem read_truncated (h : read raw = .ok v) (hcut : raw.toList = p ++ q) :
    (read (.ofList p) = .ok v ∧ Blank q) ∨
    (∃ reason, read (.ofList p) = .error (.invalidPayload reason) ∧
      "EOF while parsing".toList <+: reason.toList) ∨
    (∃ reason, read (.ofList p) = .error (.invalidPayload reason) ∧
      "number out of range".toList <+: reason.toList ∧ CutsNumber p q) := by
  obtain ⟨t, hfeed, hfinish⟩ := read_eq_ok_iff.mp (json_read_of_read h)
  rw [hcut] at hfeed
  -- the state at the cut, from which the whole text goes on to its end
  obtain ⟨s, hp, hq⟩ := State.feed_append_eq_ok hfeed
  cases hs : s.finish with
  | ok u =>
    obtain ⟨rfl, hblank⟩ := State.feed_of_finish_eq_ok hs hq hfinish (isObject_of_read h)
    refine .inl ⟨read_of_isObject (read_eq_ok_iff.mpr ⟨s, ?_, hs⟩) (isObject_of_read h), hblank⟩
    rwa [String.toList_ofList]
  -- at the cut the machine would go on, or it has a number that is too large so far
  | error cause =>
    obtain ⟨place, hrun⟩ := State.run_append hp {} []
    have hread : read (.ofList p) =
        .error (.invalidPayload (Json.Fault.message ⟨cause, place⟩)) := by
      refine read_of_fault ?_
      rw [Json.read, String.toList_ofList]
      rw [List.append_nil] at hrun
      rw [hrun, State.run, hs]
      rfl
    rcases State.finish_eq_error hs with hend | ⟨rfl, n, stack, rfl, hn⟩
    · exact .inr (.inl ⟨_, hread, prefix_message (Cause.message_of_isEnd hend)⟩)
    · refine .inr (.inr ⟨_, hread, prefix_message (List.prefix_refl _), ?_⟩)
      obtain ⟨front, text, rfl, hfront, hnumeral⟩ := State.exists_numeral hp rfl
      exact cutsNumber_of_finish hfront hnumeral hn hq hfinish

/-- An object that holds a word. -/
def worded : Value := .object [("a", .bool true)]

/-- The text of `worded`. -/
def wordedText : String := "\x7b\"a\":true\x7d"

/-- The text of an object that breaks off in a number beyond the greatest binary64 number. -/
def cutFront : List Char := "\x7b\"a\":1".toList ++ List.replicate 309 '0'

/-- What makes a number of it that is in range, and ends the text. -/
def cutBack : List Char := "e-9\x7d".toList

/-- What is left of the text is refused at its last zero. -/
theorem run_cutFront :
    State.start.run {} cutFront = .error ⟨.numberOutOfRange, { line := 1, column := 315 }⟩ := by
  have hfault : (match State.start.run {} cutFront with
      | .error fault => some fault
      | .ok _ => none) = some ⟨.numberOutOfRange, { line := 1, column := 315 }⟩ := by
    decide +kernel
  split at hfault
  · next fault hrun => rw [hrun, Option.some.inj hfault]
  · exact absurd hfault (by simp)

/-- The whole text is that of an object. -/
theorem run_cutBack :
    ∃ v, State.start.run {} (cutFront ++ cutBack) = .ok v ∧ v.isObject = true := by
  have hobj : (match State.start.run {} (cutFront ++ cutBack) with
      | .error _ => false
      | .ok v => v.isObject) = true := by
    decide +kernel
  split at hobj
  · exact absurd hobj (by simp)
  · next v hrun => exact ⟨v, hrun, hobj⟩

/-- What is left of the text is refused as a payload, for its size. -/
theorem read_cutFront : read (.ofList cutFront) =
    .error (.invalidPayload "number out of range at line 1 column 315") := by
  have hmessage : "number out of range at line 1 column 315" =
      Json.Fault.message ⟨.numberOutOfRange, { line := 1, column := 315 }⟩ := by
    decide
  rw [hmessage]
  exact read_of_fault (by rw [Json.read, String.toList_ofList, run_cutFront])

/-- The whole text is a payload. -/
theorem exists_read_cutBack : ∃ v, read (.ofList (cutFront ++ cutBack)) = .ok v := by
  obtain ⟨v, hrun, hobj⟩ := run_cutBack
  refine ⟨v, read_of_isObject ?_ hobj⟩
  rw [Json.read, String.toList_ofList, hrun]

/-- A word that is cut, and a number that is put out of range by the cut. -/
theorem read_truncated_word_number :
    (read wordedText = .ok worded ∧ wordedText.toList = "\x7b\"a\":tr".toList ++ "ue\x7d".toList ∧
      ((read (.ofList "\x7b\"a\":tr".toList) = .ok worded ∧ Blank "ue\x7d".toList) ∨
      (∃ reason, read (.ofList "\x7b\"a\":tr".toList) = .error (.invalidPayload reason) ∧
        "EOF while parsing".toList <+: reason.toList) ∨
      (∃ reason, read (.ofList "\x7b\"a\":tr".toList) = .error (.invalidPayload reason) ∧
        "number out of range".toList <+: reason.toList ∧
          CutsNumber "\x7b\"a\":tr".toList "ue\x7d".toList))) ∧
    ∃ v, read (.ofList (cutFront ++ cutBack)) = .ok v ∧ CutsNumber cutFront cutBack := by
  have hread : read wordedText = .ok worded := by rfl
  have hcut : wordedText.toList = "\x7b\"a\":tr".toList ++ "ue\x7d".toList := by decide
  refine ⟨⟨hread, hcut, read_truncated hread hcut⟩, ?_⟩
  obtain ⟨v, hwhole⟩ := exists_read_cutBack
  -- what is left of the number is refused for its size, so only the last case is left
  rcases read_truncated hwhole String.toList_ofList with ⟨hok, -⟩ | ⟨reason, herror, hend⟩ | hrange
  · rw [read_cutFront] at hok
    exact absurd hok (by simp)
  · rw [read_cutFront] at herror
    obtain rfl := Error.invalidPayload.inj (Except.error.inj herror)
    exact absurd hend (by decide)
  · obtain ⟨reason, -, -, hcuts⟩ := hrange
    exact ⟨v, hwhole, hcuts⟩

/-- **A payload that is cut in a number is refused for the size of what is left.** -/
theorem cutFront_outOfRange :
    (∃ v, read (.ofList (cutFront ++ cutBack)) = .ok v) ∧ cutBack ≠ [] ∧
      read (.ofList cutFront) =
        .error (.invalidPayload "number out of range at line 1 column 315") ∧
      ¬"EOF while parsing".toList <+: "number out of range at line 1 column 315".toList :=
  ⟨exists_read_cutBack, by decide, read_cutFront, by decide⟩

end Payload

end TokenForge
