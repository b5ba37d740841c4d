import Mathlib.Tactic.Common
import TokenForge.Proofs.Json.Numeral
import TokenForge.Proofs.Json.Scan

/-!
# The reading machine over a stretch of text

* `State.feed` — the state after some characters, places left out, and `State.run_eq_ok_iff`;
* `State.Awaits` — states in which a value may begin;
* `State.Like` — states that go on alike: a number that has been read is as good as complete.
-/

namespace TokenForge.Json

/-- The place after some characters. -/
def Place.afterAll (place : Place) (cs : List Char) : Place := cs.foldl Place.after place

namespace State

/-- The state after some characters, or why one of them is refused. -/
def feed (s : State) (cs : List Char) : Except Refusal State := cs.foldlM State.step s

variable {s t u : State} {c : Char} {cs : List Char} {stack : List Frame} {v : Value}

@[simp] theorem feed_nil (s : State) : s.feed [] = .ok s := rfl

theorem feed_cons (h : s.step c = .ok t) (cs : List Char) : s.feed (c :: cs) = t.feed cs := by
  unfold feed
  rw [List.foldlM_cons, h]
  rfl

/-- A character that is refused decides over all that follow. -/
theorem feed_cons_of_refused {refusal : Refusal} (h : s.step c = .error refusal)
    (cs : List Char) : s.feed (c :: cs) = .error refusal := by
  unfold feed
  rw [List.foldlM_cons, h]
  rfl

theorem feed_singleton (h : s.step c = .ok t) : s.feed [c] = .ok t := feed_cons h []

theorem feed_append (h : s.feed cs = .ok t) (ds : List Char) :
    s.feed (cs ++ ds) = t.feed ds := by
  unfold feed at h ⊢
  rw [List.foldlM_append, h]
  rfl

/-- A text whose characters are all taken takes those of its beginning. -/
theorem feed_append_eq_ok {ds : List Char} (h : s.feed (cs ++ ds) = .ok t) :
    ∃ u, s.feed cs = .ok u ∧ u.feed ds = .ok t := by
  cases hcs : s.feed cs with
  | ok u => exact ⟨u, rfl, (feed_append hcs ds).symm.trans h⟩
  | error refusal =>
    unfold feed at hcs h
    rw [List.foldlM_append, hcs] at h
    exact absurd h (by simp [bind, Except.bind])

theorem feed_cons_eq_ok (h : s.feed (c :: cs) = .ok t) :
    ∃ u, s.step c = .ok u ∧ u.feed cs = .ok t := by
  cases hstep : s.step c with
  | ok u =>
    rw [feed_cons hstep] at h
    exact ⟨u, rfl, h⟩
  | error refusal =>
    rw [feed_cons_of_refused hstep] at h
    exact absurd h (by simp)

/-- A run over a stretch that is taken goes on from the state and the place behind it. -/
theorem run_append_after (h : s.feed cs = .ok t) (place : Place) (ds : List Char) :
    s.run place (cs ++ ds) = t.run (place.afterAll cs) ds := by
  induction cs generalizing s place with
  | nil =>
    obtain rfl := Except.ok.inj h
    rfl
  | cons c cs ih =>
    obtain ⟨u, hstep, hfeed⟩ := feed_cons_eq_ok h
    rw [List.cons_append, run, hstep]
    exact ih hfeed (place.after c)

theorem run_append (h : s.feed cs = .ok t) (place : Place) (ds : List Char) :
    ∃ next, s.run place (cs ++ ds) = t.run next ds :=
  ⟨_, run_append_after h place ds⟩

/-- **A run gives a value exactly if every character is taken and the last state is final.** -/
theorem run_eq_ok_iff {place : Place} :
    s.run place cs = .ok v ↔ ∃ t, s.feed cs = .ok t ∧ t.finish = .ok v := by
  -- by induction on the text: the place changes with every character, but only a fault tells it
  induction cs generalizing s place with
  | nil =>
    rw [run]
    constructor
    · intro h
      refine ⟨s, rfl, ?_⟩
      cases hf : s.finish with
      | ok w =>
        rw [hf] at h
        exact congrArg Except.ok (Except.ok.inj h)
      | error cause =>
        rw [hf] at h
        exact absurd h (by simp [Except.mapError])
    · rintro ⟨t, ht, hv⟩
      obtain rfl := Except.ok.inj ht
      rw [hv]
      rfl
  | cons c cs ih =>
    rw [run]
    cases hstep : s.step c with
    | ok t =>
      rw [feed_cons hstep]
      exact ih
    | error refusal =>
      -- run and fold both stop at the character that is refused
      rw [feed_cons_of_refused hstep]
      simp

end State

/-- A text is read exactly if all of it is taken and it may end. -/
theorem read_eq_ok_iff {text : String} {v : Value} :
    read text = .ok v ↔ ∃ t, State.start.feed text.toList = .ok t ∧ t.finish = .ok v :=
  State.run_eq_ok_iff

/-! ### White space -/

theorem isSpace_iff {c : Char} :
    isSpace c = true ↔ c = ' ' ∨ c = '\t' ∨ c = '\n' ∨ c = '\r' := by
  simp [isSpace, or_assoc]

theorem Blank.nil : Blank [] := fun _ h => absurd h (by simp)

theorem Blank.isSpace {w : List Char} (h : Blank w) {c : Char} (hc : c ∈ w) : isSpace c = true :=
  isSpace_iff.mpr (h c hc)

theorem Blank.snoc {w : List Char} (h : Blank w) {c : Char} (hc : Json.isSpace c = true) :
    Blank (w ++ [c]) := by
  intro d hd
  rcases List.mem_append.mp hd with hd | hd
  · exact h d hd
  · rw [List.mem_singleton.mp hd]
    exact isSpace_iff.mp hc

/-! ### States that go on alike -/

/-- The characters that may follow a value. -/
def EndsValue (c : Char) : Prop := isSpace c = true ∨ c = ',' ∨ c = ']' ∨ c = '\x7d'

namespace State

variable {s t : State} {stack : List Frame}

/-- White space leaves a state as it is. -/
theorem feed_blank {w : List Char} (hw : Blank w)
    (hs : ∀ c, isSpace c = true → s.step c = .ok s) : s.feed w = .ok s := by
  induction w with
  | nil => rfl
  | cons c w ih =>
    rw [feed_cons (hs c (hw.isSpace (by simp)))]
    exact ih fun d hd => hw d (by simp [hd])

/-- **A state in which a value may begin**, inside the containers of `stack`. -/
structure Awaits (s : State) (stack : List Frame) : Prop where
  space : ∀ c, isSpace c = true → s.step c = .ok s
  /-- Every other character begins it, or closes an array. -/
  other : ∀ c, isSpace c = false → c ≠ ']' → s.step c = State.begin c stack

/-- **Two states that treat the end of a value alike**, be it the end of the text. -/
structure Like (s t : State) : Prop where
  step : ∀ c, EndsValue c → s.step c = t.step c
  finish : s.finish = t.finish

theorem Like.refl (s : State) : Like s s := ⟨fun _ _ => rfl, rfl⟩

/-- After white space that follows a value, the two states are still alike. -/
theorem Like.feed_blank {w : List Char} (h : Like s t) (hw : Blank w)
    (ht : ∀ c, isSpace c = true → t.step c = .ok t) : ∃ u, s.feed w = .ok u ∧ Like u t := by
  cases w with
  | nil => exact ⟨s, rfl, h⟩
  | cons c w =>
    -- the first blank already leads to `t`, and the others stay there
    have hc : isSpace c = true := hw.isSpace (by simp)
    have hstep : s.step c = .ok t := (h.step c (.inl hc)).trans (ht c hc)
    refine ⟨t, ?_, .refl t⟩
    rw [feed_cons hstep]
    exact State.feed_blank (fun d hd => hw d (by simp [hd])) ht

/-- White space between tokens changes nothing. -/
theorem between_space (mode : Mode) (stack : List Frame) {c : Char} (hc : isSpace c = true) :
    between mode stack c = .ok ⟨mode, stack⟩ := by
  unfold between
  rw [if_pos hc]

/-- A character that is taken between tokens is white space, or begins or ends something. -/
theorem between_cases {mode : Mode} {c : Char} (h : between mode stack c = .ok t) :
    (isSpace c = true ∧ t = ⟨mode, stack⟩) ∨ isSpace c = false := by
  cases hc : isSpace c with
  | true =>
    rw [between_space _ _ hc] at h
    exact .inl ⟨rfl, (Except.ok.inj h).symm⟩
  | false => exact .inr rfl

theorem awaits_start : Awaits .start [] where
  space c hc := by simp [start, step, between, hc]
  other c hc _ := by simp [start, step, between, hc]

theorem awaits_firstItem : Awaits ⟨.firstItem, stack⟩ (.array [] :: stack) where
  space c hc := by simp [step, between, hc]
  other c hc hclose := by simp [step, between, hc, hclose]

theorem awaits_nextItem {items : List Value} :
    Awaits ⟨.nextItem items, stack⟩ (.array items :: stack) where
  space c hc := by simp [step, between, hc]
  other c hc hclose := by simp [step, between, hc, hclose]

theorem awaits_value : Awaits ⟨.value, stack⟩ stack where
  space c hc := by simp [step, between, hc]
  other c hc _ := by simp [step, between, hc]

/-- Once a value is complete, a character stands between tokens. -/
theorem complete_step (v : Value) (stack : List Frame) (c : Char) :
    (complete v stack).step c = between (complete v stack).mode (complete v stack).stack c := by
  cases stack with
  | nil => rfl
  | cons frame stack => cases frame <;> rfl

theorem complete_step_space (v : Value) (stack : List Frame) {c : Char} (hc : isSpace c = true) :
    (complete v stack).step c = .ok (complete v stack) := by
  rw [complete_step, between_space _ _ hc]

/-- **A number that may end is as good as complete.** -/
theorem like_number {n : Numeral} {x : Number} (hx : n.finish = .ok x)
    (hstop : ∀ c, EndsValue c → n.step c = .stop) :
    Like ⟨.number n, stack⟩ (complete (.number x) stack) where
  -- the character that stops a number is taken as one behind the complete value
  step c hc := by
    rw [complete_step]
    simp only [step, hstop c hc, hx]
  -- at the end of the text both are the number, or both refused inside a container
  finish := by
    cases stack with
    | nil => simp [finish, hx, complete]; rfl
    | cons frame stack => cases frame <;> (simp [finish, hx, complete]; rfl)

/-! ### Numbers, strings and keys -/

/-- A stretch that belongs to a number. -/
theorem feed_number {n m : Numeral} {cs : List Char} (h : n.feed cs = some m) :
    feed ⟨.number n, stack⟩ cs = .ok ⟨.number m, stack⟩ := by
  induction cs generalizing n with
  | nil =>
    obtain rfl := Option.some.inj h
    rfl
  | cons c cs ih =>
    cases hstep : n.step c with
    | more k =>
      rw [Numeral.feed_cons hstep] at h
      have hs : step ⟨.number n, stack⟩ c = .ok ⟨.number k, stack⟩ := by simp only [step, hstep]
      rw [feed_cons hs]
      exact ih h
    -- the numeral takes all of the stretch, so it neither stops nor fails at `c`
    | stop =>
      rw [Numeral.feed, hstep] at h
      exact absurd h (by simp)
    | fault cause =>
      rw [Numeral.feed, hstep] at h
      exact absurd h (by simp)

/-- **A stretch inside a string or a key**, with `mode` the place where its characters are kept. -/
theorem feed_scan {mode : Scan → List Char → Mode}
    (hmode : ∀ {scan next : Scan} {c : Char} {cs read : List Char}, scan.step c = .more next cs →
      step ⟨mode scan read, stack⟩ c = .ok ⟨mode next (cs.reverse ++ read), stack⟩)
    {scan next : Scan} {cs read more : List Char} (h : scan.feed cs = some (next, more)) :
    feed ⟨mode scan read, stack⟩ cs = .ok ⟨mode next (more.reverse ++ read), stack⟩ := by
  induction cs generalizing scan read more with
  | nil =>
    obtain ⟨rfl, rfl⟩ := Prod.mk.inj (Option.some.inj h)
    rfl
  | cons c cs ih =>
    -- the machine keeps what is read in reverse
    obtain ⟨k, r, rest, hstep, hrest, rfl⟩ := Scan.feed_cons_eq_some h
    rw [feed_cons (hmode hstep), ih hrest, List.reverse_append, List.append_assoc]

theorem feed_string {scan next : Scan} {cs read more : List Char}
    (h : scan.feed cs = some (next, more)) :
    feed ⟨.string scan read, stack⟩ cs = .ok ⟨.string next (more.reverse ++ read), stack⟩ := by
  refine feed_scan (fun hstep => ?_) h
  simp only [step, hstep]

theorem feed_key {members : Members} {scan next : Scan} {cs read more : List Char}
    (h : scan.feed cs = some (next, more)) :
    feed ⟨.key members scan read, stack⟩ cs =
      .ok ⟨.key members next (more.reverse ++ read), stack⟩ := by
  refine feed_scan (fun hstep => ?_) h
  simp only [step, hstep]

/-- A key, from after its opening quote to its closing one. -/
theorem feed_key_close {members : Members} {t : List Char} {s : String}
    (h : SpellsChars t s.toList) :
    feed ⟨.key members .plain [], stack⟩ (t ++ ['"']) = .ok ⟨.colon members s, stack⟩ := by
  rw [feed_append (feed_key (Scan.feed_spelled h))]
  simp [feed_singleton, step, Scan.step]

/-- A string, from after its opening quote to its closing one. -/
theorem feed_string_close {t : List Char} {s : String} (h : SpellsChars t s.toList) :
    feed ⟨.string .plain [], stack⟩ (t ++ ['"']) = .ok (complete (.string s) stack) := by
  rw [feed_append (feed_string (Scan.feed_spelled h))]
  have hs : step ⟨.string .plain (s.toList.reverse ++ []), stack⟩ '"' =
      .ok (complete (.string s) stack) := by
    simp [step, Scan.step]
  exact feed_singleton hs

end State

end TokenForge.Json
