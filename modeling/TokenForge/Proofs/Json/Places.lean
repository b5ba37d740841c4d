import TokenForge.Proofs.Json.Truncated
import TokenForge.Proofs.Text.Utf8

/-!
# Where a payload is refused

The place that a refusal names is found in the bytes of the text: its line is told by the line feeds
in front of it, and its column by the bytes behind the last of them (`Place.ofBytes`). And except
where the text ends or a number is too large, the bytes up to that place are all that a refusal
rests on: every text that begins with them is refused in the same way.

* `Place.within_ofBytes` — the bytes of a character move a place as the reader moves it;
* `State.Regular` — what the reader may be in the middle of;
* `State.bytes_of_step` — how far into a character a refusal is found;
* `State.step_wide` — characters of more than one byte are refused alike;
* `State.run_eq_error` — a run is refused at a character or at its end;
* `Payload.read_place` — where a payload is refused, and for which bytes.
-/

namespace TokenForge

namespace Json

/-! ### Places in bytes -/

/-- **The place behind some bytes.** The line feeds are counted for the line, and what is behind the
last of them for the column. -/
def Place.ofBytes (bytes : Bytes) : Place where
  line := 1 + bytes.count 0x0A
  column := (bytes.reverse.takeWhile (· ≠ 0x0A)).length

example : Place.ofBytes [0x7B, 0x0A, 0x20, 0x5D] = { line := 2, column := 2 } := by decide

namespace Place

variable {front bytes : Bytes} {c : Char}

/-- Bytes without a line feed move the column only. -/
theorem ofBytes_append (h : 0x0A ∉ bytes) :
    ofBytes (front ++ bytes) =
      { ofBytes front with column := (ofBytes front).column + bytes.length } := by
  have hall : ∀ b ∈ bytes.reverse, (b ≠ (0x0A : UInt8)) := fun b hb hlf =>
    h (hlf ▸ List.mem_reverse.mp hb)
  -- the column is counted from the end, so the new bytes come first
  have htake : (bytes.reverse ++ front.reverse).takeWhile (· ≠ (0x0A : UInt8)) =
      bytes.reverse ++ front.reverse.takeWhile (· ≠ (0x0A : UInt8)) :=
    List.takeWhile_append_of_pos (by simpa using hall)
  rw [ofBytes, List.reverse_append, htake, List.count_append, List.count_eq_zero_of_not_mem h,
    List.length_append, List.length_reverse, Nat.add_comm bytes.length]
  rfl

/-- A line feed begins a line. -/
theorem ofBytes_lineFeed (front : Bytes) :
    ofBytes (front ++ [0x0A]) = { line := (ofBytes front).line + 1, column := 0 } := by
  rw [ofBytes, List.reverse_append, List.count_append]
  rfl

/-- **A place inside a character** is behind as many of its bytes. -/
theorem within_ofBytes {k : Nat} (hk : k ≤ c.utf8Size) :
    (ofBytes front).within c k = ofBytes (front ++ (String.utf8EncodeChar c).take k) := by
  rcases Nat.eq_zero_or_pos k with rfl | hpos
  · rw [within, if_pos rfl, List.take_zero, List.append_nil]
  rw [within, if_neg (by omega)]
  by_cases hc : c = '\n'
  · -- a line feed is one byte
    subst hc
    obtain rfl : k = 1 := le_antisymm hk hpos
    rw [if_pos rfl]
    exact (ofBytes_lineFeed front).symm
  · -- no other character has the byte of a line feed in it
    have hlf : 0x0A ∉ (String.utf8EncodeChar c).take k := fun hmem =>
      Utf8.lineFeed_not_mem_utf8EncodeChar hc (List.mem_of_mem_take hmem)
    rw [if_neg hc, ofBytes_append hlf, List.length_take, String.length_utf8EncodeChar,
      Nat.min_eq_left hk]

/-- The place behind a character is behind all of its bytes. -/
theorem after_ofBytes (front : Bytes) (c : Char) :
    (ofBytes front).after c = ofBytes (front ++ String.utf8EncodeChar c) := by
  rw [after, within_ofBytes le_rfl, ← String.length_utf8EncodeChar, List.take_length]

/-- **The place behind a text** is the place behind its bytes. -/
theorem afterAll_ofBytes (front : Bytes) (cs : List Char) :
    (ofBytes front).afterAll cs = ofBytes (front ++ Utf8.encode cs) := by
  induction cs generalizing front with
  | nil => rw [Utf8.encode, List.flatMap_nil, List.append_nil]; rfl
  | cons c cs ih =>
    have hrest := ih (front ++ String.utf8EncodeChar c)
    rw [List.append_assoc] at hrest
    rw [afterAll, List.foldl_cons, after_ofBytes]
    exact hrest

theorem afterAll_start (cs : List Char) : afterAll {} cs = ofBytes (Utf8.encode cs) :=
  afterAll_ofBytes [] cs

end Place

/-! ### Units are taken in whole characters -/

/-- Fewer than four bytes of a unit have been taken. -/
def Scan.Framed : Scan → Prop
  | .unit _ bytes _ => bytes < 4
  | _ => True

/-- **What the reader may be in the middle of**: a unit that is framed, or a word in characters of
one byte. -/
def State.Regular (s : State) : Prop :=
  match s.mode with
  | .string scan _ | .key _ scan _ => scan.Framed
  | .word next rest _ => ∀ x ∈ next :: rest, x.utf8Size = 1
  | _ => True

namespace Scan

variable {scan next : Scan} {read : List Char} {c : Char} {cause : Cause} {k : Nat}

/-- What comes behind a whole unit is no unit that is full. -/
theorem framed_finishUnit {lead : Option Nat} {n : Nat} (h : finishUnit lead n = .more next read) :
    next.Framed := by
  cases lead with
  | none =>
    simp only [finishUnit] at h
    split_ifs at h <;> (obtain ⟨rfl, -⟩ := Step.more.inj h; trivial)
  | some l =>
    simp only [finishUnit] at h
    split_ifs at h
    obtain ⟨rfl, -⟩ := Step.more.inj h
    trivial

/-- **A character leaves the scan framed.** A unit goes on only below four bytes, and a new one
begins with none. -/
theorem Framed.step (h : scan.step c = .more next read) : next.Framed := by
  cases scan with
  -- the only case in which bytes are counted
  | unit lead bytes value =>
    simp only [Scan.step, unitStep] at h
    split at h
    · next hlt =>
      obtain ⟨rfl, -⟩ := Step.more.inj h
      exact hlt
    · split at h
      · exact framed_finishUnit h
      · exact absurd h (by simp)
  | plain =>
    simp only [Scan.step] at h
    split_ifs at h <;> (obtain ⟨rfl, -⟩ := Step.more.inj h; trivial)
  -- the letter of a unit begins one with no bytes; the others are single characters
  | escape =>
    simp only [Scan.step] at h
    split at h
    · obtain ⟨rfl, -⟩ := Step.more.inj h
      exact Nat.zero_lt_succ 3
    · split at h
      · obtain ⟨rfl, -⟩ := Step.more.inj h
        trivial
      · exact absurd h (by simp)
  | pairSlash lead =>
    simp only [Scan.step] at h
    split_ifs at h
    obtain ⟨rfl, -⟩ := Step.more.inj h
    trivial
  -- so does the letter behind a leading surrogate
  | pairMark lead =>
    simp only [Scan.step] at h
    split_ifs at h
    obtain ⟨rfl, -⟩ := Step.more.inj h
    exact Nat.zero_lt_succ 3

/-- A unit that is refused as a whole is refused at the first byte of its last character. -/
theorem finishUnit_fault {lead : Option Nat} {n : Nat} (h : finishUnit lead n = .fault cause k) :
    k = 1 := by
  cases lead with
  | none =>
    simp only [finishUnit] at h
    split_ifs at h
    exact (Step.fault.inj h).2.symm
  | some l =>
    simp only [finishUnit] at h
    split_ifs at h
    exact (Step.fault.inj h).2.symm

/-- **A string is refused inside the character** that it is refused for. -/
theorem fault_bytes (hscan : scan.Framed) (h : scan.step c = .fault cause k) :
    0 < k ∧ k ≤ c.utf8Size := by
  -- every fault but one is at the first byte of the character
  have hone : k = 1 → 0 < k ∧ k ≤ c.utf8Size := by
    rintro rfl
    exact ⟨Nat.zero_lt_one, c.utf8Size_pos⟩
  cases scan with
  | unit lead bytes value =>
    have hbytes : bytes < 4 := hscan
    simp only [Scan.step, unitStep] at h
    split at h
    · exact absurd h (by simp)
    · next hlong =>
      split at h
      · exact hone (finishUnit_fault h)
      · -- a unit with something else than a digit is refused at its fourth byte, which the
        -- character has as it fills the unit
        obtain ⟨-, rfl⟩ := Step.fault.inj h
        omega
  | plain =>
    simp only [Scan.step] at h
    split_ifs at h
    exact hone (Step.fault.inj h).2.symm
  | escape =>
    simp only [Scan.step] at h
    split at h
    · exact absurd h (by simp)
    · split at h
      · exact absurd h (by simp)
      · exact hone (Step.fault.inj h).2.symm
  | pairSlash lead =>
    simp only [Scan.step] at h
    split_ifs at h
    exact hone (Step.fault.inj h).2.symm
  | pairMark lead =>
    simp only [Scan.step] at h
    split_ifs at h
    exact hone (Step.fault.inj h).2.symm

end Scan

namespace State

variable {s t : State} {mode : Mode} {stack : List Frame} {c d : Char} {cause : Cause} {k : Nat}

theorem regular_complete (v : Value) (stack : List Frame) : (complete v stack).Regular := by
  cases stack with
  | nil => trivial
  | cons frame stack => cases frame <;> trivial

/-- What begins a value is regular; the words are in characters of one byte. -/
theorem regular_begin (h : begin c stack = .ok t) : t.Regular := by
  have hword : ∀ {next rest v}, (State.mk (.word next rest v) stack) = t →
      (∀ x ∈ next :: rest, x.utf8Size = 1) → t.Regular := by
    rintro next rest v rfl hone
    exact hone
  unfold begin at h
  split_ifs at h
  · exact hword (Except.ok.inj h) (by simp [Char.utf8Size])
  · exact hword (Except.ok.inj h) (by simp [Char.utf8Size])
  · exact hword (Except.ok.inj h) (by simp [Char.utf8Size])
  -- strings, minus signs, arrays and objects
  iterate 4
    · obtain rfl := Except.ok.inj h
      trivial
  split at h
  · obtain rfl := Except.ok.inj h
    trivial
  · obtain rfl := Except.ok.inj h
    trivial
  · exact absurd h (by simp)

/-- What a character leads to between tokens is regular. -/
theorem regular_between (hmode : (State.mk mode stack).Regular) (h : between mode stack c = .ok t) :
    t.Regular := by
  unfold between at h
  split at h
  · obtain rfl := Except.ok.inj h
    exact hmode
  · split at h <;> first
      | exact regular_begin h
      | (split_ifs at h <;> first
          | exact regular_begin h
          | (obtain rfl := Except.ok.inj h; first | exact regular_complete _ _ | trivial))
      | exact absurd h (by simp)

/-- **A character leaves a state framed.** -/
theorem Regular.step (hs : s.Regular) (h : s.step c = .ok t) : t.Regular := by
  obtain ⟨mode, stack⟩ := s
  cases mode with
  -- inside strings and keys the scan is what counts
  | string scan read =>
    simp only [State.step] at h
    split at h
    · next next cs hscan =>
      obtain rfl := Except.ok.inj h
      exact Scan.Framed.step hscan
    · obtain rfl := Except.ok.inj h
      exact regular_complete _ _
    · exact absurd h (by simp)
  | key members scan read =>
    simp only [State.step] at h
    split at h
    · next next cs hscan =>
      obtain rfl := Except.ok.inj h
      exact Scan.Framed.step hscan
    · obtain rfl := Except.ok.inj h
      trivial
    · exact absurd h (by simp)
  -- the rest of a word is in characters of one byte, as the word is
  | word next rest v =>
    simp only [State.step] at h
    split at h
    · exact absurd h (by simp)
    · split at h
      · obtain rfl := Except.ok.inj h
        exact regular_complete _ _
      · obtain rfl := Except.ok.inj h
        exact fun x hx => hs x (List.mem_cons_of_mem _ hx)
  -- a number that ends at the character is followed by what stands between tokens
  | number n =>
    simp only [State.step] at h
    split at h
    · obtain rfl := Except.ok.inj h
      trivial
    · exact absurd h (by simp)
    · split at h
      · exact regular_between (regular_complete _ _) h
      · exact absurd h (by simp)
  | _ => exact regular_between hs h

/-- **So do all characters of a stretch.** -/
theorem Regular.feed {cs : List Char} (hs : s.Regular) (h : s.feed cs = .ok t) : t.Regular := by
  induction cs generalizing s with
  | nil =>
    obtain rfl := Except.ok.inj h
    exact hs
  | cons c cs ih =>
    obtain ⟨u, hstep, hrest⟩ := feed_cons_eq_ok h
    exact ih (hs.step hstep) hrest

/-! ### How far into a character a refusal is found -/

/-- No value begins: found at the first byte. -/
theorem bytes_of_begin (h : begin c stack = .error (cause, k)) : k = 1 := by
  unfold begin at h
  split_ifs at h
  · exact (Prod.mk.inj (Except.error.inj h)).2.symm
  · exact (Prod.mk.inj (Except.error.inj h)).2.symm
  · split at h
    · exact absurd h (by simp)
    · exact absurd h (by simp)
    · exact (Prod.mk.inj (Except.error.inj h)).2.symm

/-- Between tokens a character is refused at its first byte. -/
theorem bytes_of_between (h : between mode stack c = .error (cause, k)) : k = 1 := by
  unfold between at h
  split at h
  · exact absurd h (by simp)
  · split at h <;> first
      | exact bytes_of_begin h
      | (split_ifs at h <;> first
          | exact bytes_of_begin h
          | exact (Prod.mk.inj (Except.error.inj h)).2.symm)
      | exact (Prod.mk.inj (Except.error.inj h)).2.symm

/-- **A refusal is found inside the character**, except that the number before it may be the reason:
that is found in front of the character. -/
theorem bytes_of_step (hs : s.Regular) (h : s.step c = .error (cause, k)) :
    k ≤ c.utf8Size ∧ (0 < k ∨ cause.isEnd = true ∨ cause = .numberOutOfRange) := by
  -- most refusals are found at the first byte
  have hone : k = 1 →
      k ≤ c.utf8Size ∧ (0 < k ∨ cause.isEnd = true ∨ cause = .numberOutOfRange) := by
    rintro rfl
    exact ⟨c.utf8Size_pos, .inl Nat.zero_lt_one⟩
  obtain ⟨mode, stack⟩ := s
  cases mode with
  | string scan read =>
    simp only [State.step] at h
    split at h
    · exact absurd h (by simp)
    · exact absurd h (by simp)
    · next hscan =>
      obtain ⟨rfl, rfl⟩ := Prod.mk.inj (Except.error.inj h)
      obtain ⟨hpos, hle⟩ := Scan.fault_bytes hs hscan
      exact ⟨hle, .inl hpos⟩
  | key members scan read =>
    simp only [State.step] at h
    split at h
    · exact absurd h (by simp)
    · exact absurd h (by simp)
    · next hscan =>
      obtain ⟨rfl, rfl⟩ := Prod.mk.inj (Except.error.inj h)
      obtain ⟨hpos, hle⟩ := Scan.fault_bytes hs hscan
      exact ⟨hle, .inl hpos⟩
  | word next rest v =>
    simp only [State.step] at h
    split at h
    · exact hone (Prod.mk.inj (Except.error.inj h)).2.symm
    · split at h <;> exact absurd h (by simp)
  | number n =>
    simp only [State.step] at h
    split at h
    · exact absurd h (by simp)
    · exact hone (Prod.mk.inj (Except.error.inj h)).2.symm
    · split at h
      · exact hone (bytes_of_between h)
      · -- the number in front of the character is refused, for its end or for its size
        next hn =>
        obtain ⟨rfl, rfl⟩ := Prod.mk.inj (Except.error.inj h)
        exact ⟨Nat.zero_le _, .inr (Numeral.finish_eq_error hn)⟩
  | _ => exact hone (bytes_of_between h)

end State

/-! ### Characters of more than one byte -/

section Wide

variable {c d x : Char}

/-- A character of more than one byte is none of the characters that the grammar names. -/
theorem eq_false_of_wide (hc : 1 < c.utf8Size) (hx : x.utf8Size = 1) : (c = x) = False :=
  eq_false fun h => absurd hc (by rw [h, hx]; exact lt_irrefl 1)

/-- A character of more than one byte is not in ASCII. -/
theorem toNat_of_wide (hc : 1 < c.utf8Size) : 0x7F < c.toNat := by
  by_contra hle
  have hone := Char.utf8Size_eq_one_iff.mpr (show c.val ≤ 127 from Nat.not_lt.mp hle)
  omega

theorem not_le_of_wide (hc : 1 < c.utf8Size) (hx : x.toNat ≤ 0x7F) : ¬c ≤ x := fun h =>
  absurd (toNat_of_wide hc) (Nat.not_lt.mpr (le_trans (show c.toNat ≤ x.toNat from h) hx))

theorem digit?_of_wide (hc : 1 < c.utf8Size) : digit? c = none := by
  rw [digit?, if_neg fun h => not_le_of_wide hc (by decide) h.2]

theorem hexValue?_of_wide (hc : 1 < c.utf8Size) : hexValue? c = none := by
  rw [hexValue?, if_neg fun h => not_le_of_wide hc (by decide) h.2,
    if_neg fun h => not_le_of_wide hc (by decide) h.2,
    if_neg fun h => not_le_of_wide hc (by decide) h.2]

theorem isSpace_of_wide (hc : 1 < c.utf8Size) : isSpace c = false := by
  simp (disch := decide) [isSpace, eq_false_of_wide hc]

/-- **In a string**, characters of more than one byte are refused alike if they take as many bytes.
-/
theorem Scan.step_wide {scan : Scan} {cause : Cause} {k : Nat} (hc : 1 < c.utf8Size)
    (hd : c.utf8Size = d.utf8Size) (h : scan.step c = .fault cause k) :
    scan.step d = .fault cause k := by
  have hwide : 1 < d.utf8Size := hd ▸ hc
  cases scan with
  | plain =>
    -- every such character belongs to a string
    have hlow : ¬c.toNat < 0x20 := by
      have := toNat_of_wide hc
      omega
    simp (disch := decide) [Scan.step, eq_false_of_wide hc, hlow] at h
  -- from here on the character is compared with single characters, or its bytes are counted
  | escape =>
    simp (disch := decide) only [Scan.step, shortEscape?, eq_false_of_wide hc, if_false] at h
    simpa (disch := decide) only [Scan.step, shortEscape?, eq_false_of_wide hwide, if_false] using h
  | unit lead bytes value =>
    simp only [Scan.step, unitStep, hexValue?_of_wide hc, hd] at h
    simpa only [Scan.step, unitStep, hexValue?_of_wide hwide] using h
  | pairSlash lead =>
    simp (disch := decide) only [Scan.step, eq_false_of_wide hc, if_false] at h
    simpa (disch := decide) only [Scan.step, eq_false_of_wide hwide, if_false] using h
  | pairMark lead =>
    simp (disch := decide) only [Scan.step, eq_false_of_wide hc, if_false] at h
    simpa (disch := decide) only [Scan.step, eq_false_of_wide hwide, if_false] using h

theorem Numeral.step_wide (n : Numeral) (hc : 1 < c.utf8Size) (hd : 1 < d.utf8Size) :
    n.step c = n.step d := by
  cases n <;>
    simp (disch := decide) only [Numeral.step, digit?_of_wide hc, digit?_of_wide hd, pointOrStop,
      markOrStop, eq_false_of_wide hc, eq_false_of_wide hd, if_false, or_self]

theorem State.begin_wide {stack : List Frame} (hc : 1 < c.utf8Size) :
    State.begin c stack = .error (.noValue, 1) := by
  simp (disch := decide) only [State.begin, digit?_of_wide hc, eq_false_of_wide hc, if_false]

theorem State.between_wide (mode : Mode) (stack : List Frame) (hc : 1 < c.utf8Size)
    (hd : 1 < d.utf8Size) : State.between mode stack c = State.between mode stack d := by
  cases mode <;>
    simp (disch := decide) only [State.between, isSpace_of_wide hc, isSpace_of_wide hd,
      Bool.false_eq_true, State.begin_wide hc, State.begin_wide hd, eq_false_of_wide hc,
      eq_false_of_wide hd, if_false]

/-- **A character of more than one byte** is refused like any other that takes as many. -/
theorem State.step_wide {s : State} {refusal : Refusal} (hs : s.Regular) (hc : 1 < c.utf8Size)
    (hd : c.utf8Size = d.utf8Size) (h : s.step c = .error refusal) : s.step d = .error refusal := by
  have hwide : 1 < d.utf8Size := hd ▸ hc
  obtain ⟨mode, stack⟩ := s
  cases mode with
  | string scan read =>
    simp only [State.step] at h ⊢
    split at h
    · exact absurd h (by simp)
    · exact absurd h (by simp)
    · next hscan => rwa [Scan.step_wide hc hd hscan]
  | key members scan read =>
    simp only [State.step] at h ⊢
    split at h
    · exact absurd h (by simp)
    · exact absurd h (by simp)
    · next hscan => rwa [Scan.step_wide hc hd hscan]
  | word next rest v =>
    have hnext : next.utf8Size = 1 := hs next (by simp)
    simp only [State.step, eq_false_of_wide hc hnext, eq_false_of_wide hwide hnext, ne_eq,
      not_false_eq_true, if_true] at h ⊢
    exact h
  | number n =>
    simp only [State.step, Numeral.step_wide n hc hwide,
      fun mode stack => State.between_wide mode stack hc hwide] at h ⊢
    exact h
  | _ => exact (State.between_wide _ _ hc hwide).symm.trans h

end Wide

/-! ### The place of a fault -/

namespace State

variable {s t : State} {place : Place} {cs pre post : List Char} {c d : Char} {fault : Fault}
  {cause : Cause} {k : Nat}

/-- **A run is refused** at one of its characters, behind others that are taken, or at its end. -/
theorem run_eq_error (h : s.run place cs = .error fault) :
    (∃ pre c post t cause k, cs = pre ++ c :: post ∧ s.feed pre = .ok t ∧
      t.step c = .error (cause, k) ∧ fault = ⟨cause, (place.afterAll pre).within c k⟩) ∨
    (∃ t cause, s.feed cs = .ok t ∧ t.finish = .error cause ∧
      fault = ⟨cause, place.afterAll cs⟩) := by
  -- by induction on the text: the character that is refused is the first one, or it comes behind
  -- one that is taken
  induction cs generalizing s place with
  | nil =>
    rw [run] at h
    cases hs : s.finish with
    | ok v =>
      rw [hs] at h
      exact absurd h (by simp [Except.mapError])
    | error cause =>
      rw [hs] at h
      exact .inr ⟨s, cause, rfl, hs, (Except.error.inj h).symm⟩
  | cons c cs ih =>
    rw [run] at h
    cases hstep : s.step c with
    | error refusal =>
      rw [hstep] at h
      exact .inl ⟨[], c, cs, s, refusal.1, refusal.2, rfl, rfl, hstep, (Except.error.inj h).symm⟩
    | ok u =>
      rw [hstep] at h
      rcases ih h with ⟨pre, d, post, t, cause, k, rfl, hfeed, hd, hplace⟩ |
        ⟨t, cause, hfeed, hfinish, hplace⟩
      · exact .inl ⟨c :: pre, d, post, t, cause, k, rfl, (feed_cons hstep pre).trans hfeed, hd,
          hplace⟩
      · exact .inr ⟨t, cause, (feed_cons hstep cs).trans hfeed, hfinish, hplace⟩

/-- A run is refused at the first character that its state refuses. -/
theorem run_of_step_eq_error (hfeed : s.feed pre = .ok t) (hstep : t.step c = .error (cause, k)) :
    s.run place (pre ++ c :: post) = .error ⟨cause, (place.afterAll pre).within c k⟩ := by
  rw [run_append_after hfeed, run, hstep]

end State

/-- Characters with the same first byte are refused alike. -/
theorem State.step_of_lead {s : State} {refusal : Refusal} {c d : Char} {a : UInt8} {as bs : Bytes}
    (hs : s.Regular) (hc : String.utf8EncodeChar c = a :: as)
    (hd : String.utf8EncodeChar d = a :: bs) (h : s.step c = .error refusal) :
    c.utf8Size = d.utf8Size ∧ s.step d = .error refusal := by
  rcases Utf8.eq_or_of_lead hc hd with rfl | ⟨hwide, hsize⟩
  · exact ⟨rfl, h⟩
  · exact ⟨hsize, State.step_wide hs hwide hsize h⟩

/-- The bytes in front of a place inside a character. -/
theorem take_encode {pre post : List Char} {c : Char} {k : Nat} (hk : k ≤ c.utf8Size) :
    (Utf8.encode (pre ++ c :: post)).take ((Utf8.encode pre).length + k) =
      Utf8.encode pre ++ (String.utf8EncodeChar c).take k := by
  have hcons : Utf8.encode (c :: post) = String.utf8EncodeChar c ++ Utf8.encode post := rfl
  rw [Utf8.encode_append, List.take_length_add_append, hcons,
    List.take_append_of_le_length (by rwa [String.length_utf8EncodeChar])]

/-- **The bytes up to a refusal decide it**: a text that begins with them has a character there that
is refused at the same byte. -/
theorem run_of_shared_bytes {s : State} {pre cs : List Char} {c : Char} {cause : Cause} {k : Nat}
    {rest : Bytes} (hs : s.Regular) (hfeed : State.start.feed pre = .ok s)
    (hstep : s.step c = .error (cause, k)) (hpos : 0 < k) (hk : k ≤ c.utf8Size)
    (hcs : Utf8.encode cs = Utf8.encode pre ++ (String.utf8EncodeChar c).take k ++ rest) :
    State.start.run {} cs =
      .error ⟨cause, .ofBytes (Utf8.encode pre ++ (String.utf8EncodeChar c).take k)⟩ := by
  rw [List.append_assoc] at hcs
  obtain ⟨es, rfl, hes⟩ := Utf8.exists_of_encode_eq_append hcs
  -- at least one byte of the character is shared
  obtain ⟨a, as, hc, -⟩ := Utf8.exists_lead c
  obtain ⟨j, rfl⟩ : ∃ j, k = j + 1 := ⟨k - 1, by omega⟩
  cases es with
  | nil => exact absurd hes (by simp [Utf8.encode, hc])
  | cons d es =>
    obtain ⟨b, bs, hd, -⟩ := Utf8.exists_lead d
    have hcons : Utf8.encode (d :: es) = String.utf8EncodeChar d ++ Utf8.encode es := rfl
    -- the first byte is shared, so the character there is refused alike
    have hlead : b = a := by
      rw [hcons, hc, hd] at hes
      exact (List.cons.inj hes).1
    obtain ⟨hsize, hrefused⟩ := State.step_of_lead hs hc (hlead ▸ hd) hstep
    -- and so are the others that were taken of it
    have hbytes : (String.utf8EncodeChar d).take (j + 1) =
        (String.utf8EncodeChar c).take (j + 1) := by
      have htake := congrArg (List.take (j + 1)) hes
      rwa [hcons, List.take_append_of_le_length (by rw [String.length_utf8EncodeChar]; omega),
        List.take_append_of_le_length (by simp [String.length_utf8EncodeChar]; omega),
        List.take_take, Nat.min_self] at htake
    rw [State.run_of_step_eq_error hfeed hrefused, Place.afterAll_start,
      Place.within_ofBytes (hsize ▸ hk), hbytes]

/-- **A fault is placed behind some bytes of the text**, and if a character is the reason for it
then they decide it. -/
theorem read_eq_error {text : String} {fault : Fault} (h : read text = .error fault) :
    ∃ i ≤ (utf8 text).length, fault.place = .ofBytes ((utf8 text).take i) ∧
      (fault.cause.isEnd = false → fault.cause ≠ .numberOutOfRange →
        ∀ other : String, (utf8 other).take i = (utf8 text).take i →
          read other = .error fault) := by
  rcases State.run_eq_error h with ⟨pre, c, post, t, cause, k, htext, hfeed, hstep, rfl⟩ |
    ⟨t, cause, hfeed, hfinish, rfl⟩
  · -- a character is refused: the place is behind its first `k` bytes
    have hregular : t.Regular := State.Regular.feed (s := State.start) trivial hfeed
    obtain ⟨hk, hpos⟩ := State.bytes_of_step hregular hstep
    have htake : (utf8 text).take ((Utf8.encode pre).length + k) =
        Utf8.encode pre ++ (String.utf8EncodeChar c).take k := by
      rw [utf8, htext, take_encode hk]
    have hlength : (Utf8.encode pre).length + k ≤ (utf8 text).length := by
      have hcons : Utf8.encode (c :: post) = String.utf8EncodeChar c ++ Utf8.encode post := rfl
      rw [utf8, htext, Utf8.encode_append, hcons, List.length_append, List.length_append,
        String.length_utf8EncodeChar]
      omega
    refine ⟨(Utf8.encode pre).length + k, hlength, ?_, fun hend hrange other hother => ?_⟩
    · rw [htake, Place.afterAll_start, Place.within_ofBytes hk]
    · -- the number in front of the character is not the reason, so at least one byte of it is
      -- shared
      have hk' : 0 < k := by
        rcases hpos with hpos | hcause | hcause
        · exact hpos
        · exact absurd hend (by simp [hcause])
        · exact absurd hcause hrange
      have hsplit := (List.take_append_drop ((Utf8.encode pre).length + k) (utf8 other)).symm
      rw [hother, htake] at hsplit
      rw [Place.afterAll_start, Place.within_ofBytes hk]
      exact run_of_shared_bytes hregular hfeed hstep hk' hk hsplit
  · -- at the end of the text, all of its bytes are in front of the place
    refine ⟨(utf8 text).length, le_rfl, ?_, fun hend hrange => ?_⟩
    · rw [List.take_length]
      exact Place.afterAll_start text.toList
    · rcases State.finish_eq_error hfinish with hcause | ⟨hcause, -⟩
      · exact absurd hend (by simp [hcause])
      · exact absurd hcause hrange

end Json

open Json

namespace Payload

/-- **Where a payload is refused.** The message ends in the line and the column that are found
behind the first `i` bytes of the text. Unless the text has come to its end or a number is out of
range, every text with the same first `i` bytes is refused with the same message. -/
theorem read_place {raw : String} {reason : String}
    (h : read raw = .error (.invalidPayload reason)) :
    ∃ (cause : Cause) (i : Nat), i ≤ (utf8 raw).length ∧
      reason = Json.Fault.message ⟨cause, .ofBytes ((utf8 raw).take i)⟩ ∧
      (¬"EOF while parsing".toList <+: reason.toList →
        ¬"number out of range".toList <+: reason.toList →
        ∀ text : String, (utf8 text).take i = (utf8 raw).take i →
          read text = .error (.invalidPayload reason)) := by
  cases hread : Json.read raw with
  | ok v =>
    cases hobj : v.isObject with
    | true => exact absurd (h.symm.trans (read_of_isObject hread hobj)) (by simp)
    | false => exact absurd (h.symm.trans (read_of_not_isObject hread hobj)) (by simp)
  | error fault =>
    have hreason : reason = fault.message := by
      simpa using h.symm.trans (read_of_fault hread)
    obtain ⟨i, hi, hplace, hdecide⟩ := read_eq_error hread
    refine ⟨fault.cause, i, hi, by rw [hreason, ← hplace], fun hend hrange text htext => ?_⟩
    -- the two kinds of refusal that the text may change are told by the message
    have hcause : fault.cause.isEnd = false := by
      cases hcause : fault.cause.isEnd with
      | false => rfl
      | true =>
        rw [hreason] at hend
        exact absurd (prefix_message (Cause.message_of_isEnd hcause)) hend
    have hnumber : fault.cause ≠ .numberOutOfRange := by
      intro hcause
      rw [hreason] at hrange
      exact hrange (prefix_message (by rw [hcause]; exact List.prefix_refl _))
    rw [hreason]
    exact read_of_fault (hdecide hcause hnumber text htext)

/-- A list that goes on with a brace behind a line feed and a letter of two bytes. -/
def bracedText : String := "\x7b\"ä\":\n[\"ä\"\x7d]\x7d"

theorem read_place_braced :
    read bracedText = .error (.invalidPayload "expected `,` or `]` at line 2 column 6") ∧
      ∃ (cause : Cause) (i : Nat), i ≤ (utf8 bracedText).length ∧
        "expected `,` or `]` at line 2 column 6" =
          Json.Fault.message ⟨cause, .ofBytes ((utf8 bracedText).take i)⟩ ∧
        (¬"EOF while parsing".toList <+: "expected `,` or `]` at line 2 column 6".toList →
          ¬"number out of range".toList <+: "expected `,` or `]` at line 2 column 6".toList →
          ∀ text : String, (utf8 text).take i = (utf8 bracedText).take i →
            read text = .error (.invalidPayload "expected `,` or `]` at line 2 column 6")) := by
  have hread : read bracedText =
      .error (.invalidPayload "expected `,` or `]` at line 2 column 6") := by
    rfl
  exact ⟨hread, read_place hread⟩

end Payload

end TokenForge
