import TokenForge.Proofs.Json.Machine

/-!
# Where numbers begin and end

A number has no mark of its own at either end. It begins at the front of the text, or behind white
space, a bracket, a comma or a colon; and it ends where something stands that may follow a value. So
the numeral that the machine is in the middle of is the end of what it has read, with one of these
characters in front of it.

* `MayPrecede`, `MayFollow` — what may stand in front of a value, and behind one;
* `State.Passes`, `State.step_eq_ok` — what one character leads to, between tokens and in every
  state;
* `State.mayPrecede_of_feed` — a value is waited for only where one may begin;
* `State.exists_numeral` — the numeral that is being read, and what stands in front of it;
* `State.mayFollow_of_feed` — what is taken behind a complete value may follow one.
-/

namespace TokenForge.Json

/-- The characters behind which a value may begin. -/
def LeadsValue (c : Char) : Prop := isSpace c = true ∨ c = '[' ∨ c = ',' ∨ c = ':'

/-- **What may stand in front of a value**: nothing, or a text with such a character at its end. -/
def MayPrecede (front : List Char) : Prop := ∀ c ∈ front.getLast?, LeadsValue c

/-- **What may stand behind a value**: nothing, or a text that goes on with such a character. -/
def MayFollow (rest : List Char) : Prop := ∀ c ∈ rest.head?, EndsValue c

/-- The modes in which a value may begin. -/
def Mode.AwaitsValue : Mode → Prop
  | .value | .firstItem | .nextItem _ => True
  | _ => False

/-- The modes between tokens. -/
def Mode.IsBetween : Mode → Prop
  | .key _ _ _ | .string _ _ | .number _ | .word _ _ _ => False
  | _ => True

/-- The modes that are far from a number: none is being read, and none may begin. -/
structure Mode.IsFar (mode : Mode) : Prop where
  not_awaitsValue : ¬mode.AwaitsValue
  ne_number : ∀ n, mode ≠ .number n

namespace State

variable {s t : State} {stack : List Frame} {pre rest : List Char} {c : Char} {v : Value}
  {n : Numeral} {mode : Mode}

/-! ### Between tokens -/

/-- **What a character between tokens leads to.** White space changes nothing and a bracket
completes a container; a comma, a quote and a colon lead on to the next token; all else begins a
value, and only where one is waited for. -/
inductive Passes (mode : Mode) (stack : List Frame) (c : Char) : State → Prop
  | space : isSpace c = true → Passes mode stack c ⟨mode, stack⟩
  | close {v : Value} {rest : List Frame} : Passes mode stack c (complete v rest)
  | item {items : List Value} : c = ',' → Passes mode stack c ⟨.nextItem items, stack⟩
  | member {members : Members} : c = ',' → Passes mode stack c ⟨.nextKey members, stack⟩
  | key {members : Members} : Passes mode stack c ⟨.key members .plain [], stack⟩
  | colon {rest : List Frame} : c = ':' → Passes mode stack c ⟨.value, rest⟩
  | begin {rest : List Frame} {t : State} :
      mode.AwaitsValue → State.begin c rest = .ok t → Passes mode stack c t

/-- What is taken between tokens leads to one of these. -/
theorem passes_of_between (hmode : mode.IsBetween) (h : between mode stack c = .ok t) :
    Passes mode stack c t := by
  rcases between_cases h with ⟨hc, rfl⟩ | hc
  · exact .space hc
  · -- white space apart, each mode takes a character or two, or begins a value
    cases mode with
    | value => exact .begin trivial (by simpa [between, hc] using h)
    | done v => exact absurd h (by simp [between, hc])
    | afterItem items =>
      simp only [between, hc, Bool.false_eq_true, if_false] at h
      split_ifs at h with hclose hcomma <;> obtain rfl := Except.ok.inj h
      · exact .close
      · exact .item hcomma
    | afterMember members =>
      simp only [between, hc, Bool.false_eq_true, if_false] at h
      split_ifs at h with hclose hcomma <;> obtain rfl := Except.ok.inj h
      · exact .close
      · exact .member hcomma
    | firstItem =>
      simp only [between, hc, Bool.false_eq_true, if_false] at h
      split_ifs at h with hclose
      · obtain rfl := Except.ok.inj h
        exact .close
      · exact .begin trivial h
    | nextItem items =>
      simp only [between, hc, Bool.false_eq_true, if_false] at h
      split_ifs at h
      exact .begin trivial h
    | firstKey =>
      simp only [between, hc, Bool.false_eq_true, if_false] at h
      split_ifs at h with hclose hquote <;> obtain rfl := Except.ok.inj h
      · exact .close
      · exact .key
    | nextKey members =>
      simp only [between, hc, Bool.false_eq_true, if_false] at h
      split_ifs at h with hquote
      obtain rfl := Except.ok.inj h
      exact .key
    | colon members key =>
      simp only [between, hc, Bool.false_eq_true, if_false] at h
      split_ifs at h with hcolon
      obtain rfl := Except.ok.inj h
      exact .colon hcolon
    | _ => exact hmode.elim

theorem isBetween_complete (v : Value) (stack : List Frame) :
    (complete v stack).mode.IsBetween := by
  cases stack with
  | nil => trivial
  | cons frame stack => cases frame <;> trivial

/-- A complete value is far from a number, even if it is one. -/
theorem isFar_complete (v : Value) (stack : List Frame) : (complete v stack).mode.IsFar := by
  cases stack with
  | nil => exact ⟨id, fun _ => Mode.noConfusion⟩
  | cons frame stack => cases frame <;> exact ⟨id, fun _ => Mode.noConfusion⟩

/-- **Behind a complete value** nothing is taken but what may follow one. -/
theorem endsValue_of_complete_step (h : (complete v stack).step c = .ok t) : EndsValue c := by
  rw [complete_step] at h
  rcases between_cases h with ⟨hc, -⟩ | hc
  · exact .inl hc
  · -- what else is taken depends on the container that the value stands in
    cases stack with
    | nil => exact absurd h (by simp [complete, between, hc])
    | cons frame stack =>
      cases frame with
      | array items =>
        simp only [complete, between, hc, Bool.false_eq_true, if_false] at h
        split_ifs at h with hclose hcomma
        · exact .inr (.inr (.inl hclose))
        · exact .inr (.inl hcomma)
      | object members key =>
        simp only [complete, between, hc, Bool.false_eq_true, if_false] at h
        split_ifs at h with hclose hcomma
        · exact .inr (.inr (.inr hclose))
        · exact .inr (.inl hcomma)

/-- What is taken behind a complete value may follow one. -/
theorem mayFollow_of_feed (h : (complete v stack).feed rest = .ok t) : MayFollow rest := by
  cases rest with
  | nil => exact fun c hc => absurd hc (by simp)
  | cons d rest =>
    obtain ⟨u, hstep, -⟩ := feed_cons_eq_ok h
    rintro c ⟨⟩
    exact endsValue_of_complete_step hstep

/-! ### Where a value begins -/

/-- Only a bracket begins a value inside which another one is waited for at once. -/
theorem eq_bracket_of_begin (h : State.begin c stack = .ok t) (ht : t.mode.AwaitsValue) :
    c = '[' := by
  cases hc : digit? c with
  | some k =>
    obtain ⟨d, rfl, rfl⟩ := eq_char_of_digit? hc
    rw [Literal.begin_digit] at h
    obtain rfl := Except.ok.inj h
    exact ht.elim
  | none =>
    unfold State.begin at h
    rw [hc] at h
    split_ifs at h <;> obtain rfl := Except.ok.inj h
    all_goals first | assumption | exact ht.elim

/-- The character that begins a number is all that has been read of it. -/
theorem reads_of_begin (h : State.begin c stack = .ok t) (ht : t.mode = .number n) :
    Numeral.Reads [c] n := by
  cases hc : digit? c with
  | some k =>
    obtain ⟨d, rfl, rfl⟩ := eq_char_of_digit? hc
    rw [Literal.begin_digit] at h
    obtain rfl := Except.ok.inj h
    obtain rfl := Mode.number.inj ht
    exact .literal (Literal.state?_ofDigit false d)
  | none =>
    unfold State.begin at h
    rw [hc] at h
    split_ifs at h <;> obtain rfl := Except.ok.inj h
    all_goals try exact Mode.noConfusion ht
    -- among the characters that are no digits, only the minus sign begins a number
    next hminus =>
      obtain rfl := Mode.number.inj ht
      subst hminus
      exact .minus

/-- **Between tokens, a value is waited for** behind white space, a bracket, a comma or a colon. -/
theorem Passes.leadsValue (h : Passes mode stack c t) (ht : t.mode.AwaitsValue) :
    LeadsValue c := by
  cases h with
  | space hc => exact .inl hc
  | close => exact absurd ht (isFar_complete _ _).not_awaitsValue
  | item hc => exact .inr (.inr (.inl hc))
  | member _ => exact ht.elim
  | key => exact ht.elim
  | colon hc => exact .inr (.inr (.inr hc))
  | begin _ hbegin => exact .inr (.inl (eq_bracket_of_begin hbegin ht))

/-- **Between tokens, a number begins** only where a value is waited for. -/
theorem Passes.reads_numeral (h : Passes mode stack c t) (hmode : mode.IsBetween)
    (ht : t.mode = .number n) : mode.AwaitsValue ∧ Numeral.Reads [c] n := by
  cases h with
  | space _ =>
    obtain rfl : mode = .number n := ht
    exact hmode.elim
  | close => exact absurd ht ((isFar_complete _ _).ne_number n)
  | item _ => exact Mode.noConfusion ht
  | member _ => exact Mode.noConfusion ht
  | key => exact Mode.noConfusion ht
  | colon _ => exact Mode.noConfusion ht
  | begin hawaits hbegin => exact ⟨hawaits, reads_of_begin hbegin ht⟩

/-! ### One character -/

/-- **What one character leads to**, as far as numbers are concerned. A number goes on, or the
machine passes from one token to the next, be it behind a number that `c` has ended; inside a string
or a word it stays far from a number. -/
theorem step_eq_ok (h : s.step c = .ok t) :
    t.mode.IsFar ∨
    (∃ m n, s.mode = .number m ∧ m.step c = .more n ∧ t = ⟨.number n, s.stack⟩) ∨
    ∃ mode stack, (mode = s.mode ∨ mode.IsFar) ∧ mode.IsBetween ∧ Passes mode stack c t := by
  obtain ⟨mode, stack⟩ := s
  have hpasses (hmode : mode.IsBetween) (hstep : between mode stack c = .ok t) :
      ∃ mode' stack', (mode' = mode ∨ mode'.IsFar) ∧ mode'.IsBetween ∧ Passes mode' stack' c t :=
    ⟨mode, stack, .inl rfl, hmode, passes_of_between hmode hstep⟩
  cases mode with
  -- inside strings, keys and words there are no numbers
  | string scan read =>
    refine .inl ?_
    simp only [step] at h
    cases hscan : scan.step c with
    | more next cs =>
      rw [hscan] at h
      obtain rfl := Except.ok.inj h
      exact ⟨id, fun _ => Mode.noConfusion⟩
    | close =>
      rw [hscan] at h
      obtain rfl := Except.ok.inj h
      exact isFar_complete _ _
    | fault cause bytes =>
      rw [hscan] at h
      exact absurd h (by simp)
  | key members scan read =>
    refine .inl ?_
    simp only [step] at h
    cases hscan : scan.step c with
    | fault cause bytes =>
      rw [hscan] at h
      exact absurd h (by simp)
    | _ =>
      rw [hscan] at h
      obtain rfl := Except.ok.inj h
      exact ⟨id, fun _ => Mode.noConfusion⟩
  | word d ds v =>
    refine .inl ?_
    simp only [step] at h
    split_ifs at h
    cases ds with
    | nil =>
      obtain rfl := Except.ok.inj h
      exact isFar_complete _ _
    | cons e es =>
      obtain rfl := Except.ok.inj h
      exact ⟨id, fun _ => Mode.noConfusion⟩
  | number m =>
    refine .inr ?_
    simp only [step] at h
    cases hm : m.step c with
    | more n =>
      rw [hm] at h
      exact .inl ⟨m, n, rfl, hm, (Except.ok.inj h).symm⟩
    | fault cause =>
      rw [hm] at h
      exact absurd h (by simp)
    | stop =>
      -- `c` is read behind the number, which is complete
      rw [hm] at h
      cases hx : m.finish with
      | error cause =>
        rw [hx] at h
        exact absurd h (by simp)
      | ok x =>
        rw [hx] at h
        have hbetween := isBetween_complete (.number x) stack
        exact .inr ⟨_, _, .inr (isFar_complete _ _), hbetween, passes_of_between hbetween h⟩
  | _ => exact .inr (.inr (hpasses trivial h))

/-- **A value is waited for** behind white space, a bracket, a comma or a colon. -/
theorem leadsValue_of_step (h : s.step c = .ok t) (ht : t.mode.AwaitsValue) : LeadsValue c := by
  rcases step_eq_ok h with hfar | ⟨m, k, -, -, rfl⟩ | ⟨mode, stack, -, -, hpasses⟩
  · exact absurd ht hfar.not_awaitsValue
  · exact ht.elim
  · exact hpasses.leadsValue ht

/-- **A number goes on or begins**, and it begins only where a value is waited for. -/
theorem numeral_of_step (h : s.step c = .ok t) (ht : t.mode = .number n) :
    (∃ m, s.mode = .number m ∧ m.step c = .more n) ∨
      s.mode.AwaitsValue ∧ Numeral.Reads [c] n := by
  rcases step_eq_ok h with hfar | ⟨m, k, hm, hmore, rfl⟩ | ⟨mode, stack, hmode, hbetween, hpasses⟩
  · exact absurd ht (hfar.ne_number n)
  · obtain rfl := Mode.number.inj ht
    exact .inl ⟨m, hm, hmore⟩
  · obtain ⟨hawaits, hreads⟩ := hpasses.reads_numeral hbetween ht
    rcases hmode with rfl | hfar
    · exact .inr ⟨hawaits, hreads⟩
    · exact absurd hawaits hfar.not_awaitsValue

/-! ### A whole stretch -/

/-- The last character of a stretch leads to the state behind it. -/
theorem step_of_feed_concat (h : s.feed (pre ++ [c]) = .ok t) :
    ∃ u, s.feed pre = .ok u ∧ u.step c = .ok t := by
  obtain ⟨u, hpre, hlast⟩ := feed_append_eq_ok h
  obtain ⟨t', hstep, hnil⟩ := feed_cons_eq_ok hlast
  obtain rfl := Except.ok.inj hnil
  exact ⟨u, hpre, hstep⟩

/-- **Where the machine waits for a value**, one may begin. -/
theorem mayPrecede_of_feed (h : start.feed pre = .ok t) (ht : t.mode.AwaitsValue) :
    MayPrecede pre := by
  rcases List.eq_nil_or_concat pre with rfl | ⟨front, d, rfl⟩
  · exact fun c hc => absurd hc (by simp)
  · rw [List.concat_eq_append] at h ⊢
    obtain ⟨u, -, hstep⟩ := step_of_feed_concat h
    intro c hc
    rw [List.getLast?_concat] at hc
    obtain rfl := Option.some.inj hc
    exact leadsValue_of_step hstep ht

/-- **The numeral that is being read** is the end of what has been read, and a value may begin where
it does. -/
theorem exists_numeral (h : start.feed pre = .ok t) (ht : t.mode = .number n) :
    ∃ front text, pre = front ++ text ∧ MayPrecede front ∧ Numeral.Reads text n := by
  -- from the last character back, to the one that began the number
  induction pre using List.reverseRecOn generalizing t n with
  | nil =>
    obtain rfl := Except.ok.inj h
    exact Mode.noConfusion ht
  | append_singleton pre c ih =>
    obtain ⟨u, hpre, hstep⟩ := step_of_feed_concat h
    rcases numeral_of_step hstep ht with ⟨m, hm, hmore⟩ | ⟨hawaits, hreads⟩
    · obtain ⟨front, text, rfl, hfront, htext⟩ := ih hpre hm
      exact ⟨front, text ++ [c], List.append_assoc _ _ _, hfront, htext.step hmore⟩
    · exact ⟨pre, [c], rfl, mayPrecede_of_feed hpre hawaits, hreads⟩

end State

end TokenForge.Json
