import TokenForge.Proofs.Json.Machine

/-!
# What is spelled is read

Every text of the language that is not nested too deeply is read as the value that it spells, with
the members of its objects put together (`read_of_spelled`). The induction is on the spelling: each
part of it takes the machine from a state in which the part may begin to one that goes on like the
state in which the part is complete.
-/

namespace TokenForge.Json

open State

/-! ### What each part does -/

/-- **A text is read as a value** wherever a value may begin and there is room for its depth. -/
def ReadsAs (t : List Char) (v : Value) : Prop :=
  ∀ s stack, Awaits s stack → stack.length + v.depth ≤ maxDepth →
    ∃ u, s.feed t = .ok u ∧ Like u (complete v.merged stack)

/-- A text is read as items of an array, after those that are there, up to where the array may end.
-/
def ReadsAsItems (t : List Char) (vs : List Value) : Prop :=
  ∀ s acc stack, Awaits s (.array acc :: stack) →
    stack.length + 1 + itemsDepth vs ≤ maxDepth →
      ∃ u, s.feed t = .ok u ∧ Like u ⟨.afterItem ((mergedItems vs).reverse ++ acc), stack⟩

/-- **A state in which a key may begin**, after the members that are there. -/
structure State.AwaitsKey (s : State) (members : Members) (stack : List Frame) : Prop where
  space : ∀ c, isSpace c = true → s.step c = .ok s
  quote : s.step '"' = .ok ⟨.key members .plain [], stack⟩

/-- A text is read as one member of an object, after those that are there. -/
def ReadsAsMember (t : List Char) (m : String × Value) : Prop :=
  ∀ s acc stack, AwaitsKey s acc stack → stack.length + 1 + m.2.depth ≤ maxDepth →
    ∃ u, s.feed t = .ok u ∧ Like u ⟨.afterMember (put m.1 m.2.merged acc), stack⟩

/-- A text is read as members of an object, after those that are there. -/
def ReadsAsMembers (t : List Char) (ms : Members) : Prop :=
  ∀ s acc stack, AwaitsKey s acc stack → stack.length + 1 + membersDepth ms ≤ maxDepth →
    ∃ u, s.feed t = .ok u ∧ Like u ⟨.afterMember (putAll acc (mergedMembers ms)), stack⟩

variable {s u : State} {stack : List Frame} {t ts w w' k : List Char} {v : Value}
  {vs : List Value} {ms : Members}

theorem awaitsKey_firstKey : AwaitsKey ⟨.firstKey, stack⟩ [] stack where
  space _ hc := between_space .firstKey stack hc
  quote := rfl

theorem awaitsKey_nextKey {members : Members} :
    AwaitsKey ⟨.nextKey members, stack⟩ members stack where
  space _ hc := between_space (.nextKey members) stack hc
  quote := rfl

/-! ### Values without values inside -/

/-- A character that begins a value is neither white space nor a closing bracket. -/
theorem opens_of_begin {c : Char} (h : begin c [] = .ok u) : isSpace c = false ∧ c ≠ ']' := by
  constructor
  · cases hc : isSpace c with
    | false => rfl
    | true =>
      -- each white space character is refused where a value has to begin
      rcases isSpace_iff.mp hc with rfl | rfl | rfl | rfl <;>
        exact absurd h (by simp [begin, digit?])
  · rintro rfl
    exact absurd h (by simp [begin, digit?])

/-- A word from its first letter that is left to its last. -/
theorem feed_word (c : Char) (cs : List Char) (v : Value) :
    feed ⟨.word c cs v, stack⟩ (c :: cs) = .ok (complete v stack) := by
  induction cs generalizing c with
  | nil => simp [feed_singleton, step]
  | cons d cs ih =>
    have hs : step ⟨.word c (d :: cs) v, stack⟩ c = .ok ⟨.word d cs v, stack⟩ := by simp [step]
    rw [feed_cons hs]
    exact ih d

/-- A word is read as what it stands for, which has nothing inside to put together. -/
theorem readsAs_word {c d : Char} {cs : List Char}
    (hbegin : ∀ stack, begin c stack = .ok ⟨.word d cs v, stack⟩) (hv : v.merged = v) :
    ReadsAs (c :: d :: cs) v := by
  intro s stack hs _
  obtain ⟨hspace, hclose⟩ := opens_of_begin (hbegin [])
  refine ⟨complete v.merged stack, ?_, .refl _⟩
  rw [feed_cons ((hs.other c hspace hclose).trans (hbegin stack)), feed_word, hv]

/-- **A literal is taken to its end**, where a value may begin. -/
theorem feed_literal {l : Literal} {n : Numeral} (hn : l.state? = some n) (hs : Awaits s stack) :
    s.feed l.text = .ok ⟨.number n, stack⟩ := by
  obtain ⟨c, t, first, htext, hbegin, hfeed⟩ := Literal.begin_text hn
  obtain ⟨hspace, hclose⟩ := opens_of_begin (hbegin [])
  rw [htext, feed_cons ((hs.other c hspace hclose).trans (hbegin stack))]
  exact feed_number hfeed

/-- No character that may follow a value goes on with a number. -/
theorem Literal.step_endsValue {l : Literal} {n : Numeral} (hn : l.state? = some n)
    {c : Char} (hc : EndsValue c) : n.step c = .stop := by
  have hend : digit? c = none ∧ c ≠ '.' ∧ c ≠ 'e' ∧ c ≠ 'E' := by
    rcases hc with hc | rfl | rfl | rfl
    · rcases isSpace_iff.mp hc with rfl | rfl | rfl | rfl <;> decide
    all_goals decide
  exact Literal.step_stop hn hend.1 hend.2.1 hend.2.2.1 hend.2.2.2

/-- **A literal that stands for a number is read as it.** -/
theorem readsAs_number {l : Literal} {x : Number} (h : l.number? = some x) :
    ReadsAs l.text (.number x) := by
  intro s stack hs _
  -- a literal that stands for a number has a state of the numeral machine
  obtain ⟨n, hn⟩ : ∃ n, l.state? = some n := by
    cases hstate : l.state? with
    | some n => exact ⟨n, rfl⟩
    | none =>
      rw [Literal.number?_of_state?_eq_none hstate] at h
      exact absurd h (by simp)
  -- and in that state a text may end, with the number as its value
  have hfinish : n.finish = .ok x := by
    have hopt := Literal.finish_state hn
    rw [h] at hopt
    cases hf : n.finish with
    | ok y =>
      rw [hf] at hopt
      exact congrArg Except.ok (Option.some.inj hopt)
    | error cause =>
      rw [hf] at hopt
      exact absurd hopt (by simp [Except.toOption])
  exact ⟨_, feed_literal hn hs, like_number hfinish fun _ hc => Literal.step_endsValue hn hc⟩

/-- A string is read as the characters that it spells. -/
theorem readsAs_string {x : String} (h : SpellsString t x) : ReadsAs t (.string x) := by
  intro s stack hs _
  obtain ⟨inside, rfl, hchars⟩ := h
  refine ⟨complete (.string x) stack, ?_, .refl _⟩
  have hquote : s.step '"' = .ok ⟨.string .plain [], stack⟩ := hs.other '"' (by decide) (by decide)
  rw [feed_cons hquote]
  exact feed_string_close hchars

/-! ### Arrays and objects -/

/-- An opening bracket, where there is room for one more container. -/
theorem step_openArray (hs : Awaits s stack) (hroom : stack.length < maxDepth) :
    s.step '[' = .ok ⟨.firstItem, stack⟩ := by
  rw [hs.other '[' (by decide) (by decide)]
  simp [begin, hroom]

/-- An opening brace, where there is room for one more container. -/
theorem step_openObject (hs : Awaits s stack) (hroom : stack.length < maxDepth) :
    s.step '\x7b' = .ok ⟨.firstKey, stack⟩ := by
  rw [hs.other '\x7b' (by decide) (by decide)]
  simp [begin, hroom]

/-- An array without items. -/
theorem readsAs_emptyArray (hw : Blank w) : ReadsAs ('[' :: (w ++ [']'])) (.array []) := by
  intro s stack hs hdepth
  simp only [Value.depth, itemsDepth] at hdepth
  refine ⟨complete (.array []) stack, ?_, .refl _⟩
  rw [feed_cons (step_openArray hs (by omega)),
    feed_append (State.feed_blank hw fun _ hc => awaits_firstItem.space _ hc)]
  exact feed_singleton rfl

/-- **Items between brackets** are read as an array. -/
theorem readsAs_array (h : ReadsAsItems t vs) : ReadsAs ('[' :: (t ++ [']'])) (.array vs) := by
  intro s stack hs hdepth
  simp only [Value.depth] at hdepth
  obtain ⟨u, hu, hlike⟩ := h ⟨.firstItem, stack⟩ [] stack awaits_firstItem (by omega)
  refine ⟨complete (.array (mergedItems vs)) stack, ?_, .refl _⟩
  rw [feed_cons (step_openArray hs (by omega)), feed_append hu]
  -- `u` may still be inside a number, but takes the bracket as the state behind the last item does
  refine feed_singleton ((hlike.step ']' (by simp [EndsValue])).trans ?_)
  simp [step, between, isSpace]

/-- An object without members. -/
theorem readsAs_emptyObject (hw : Blank w) :
    ReadsAs ('\x7b' :: (w ++ ['\x7d'])) (.object []) := by
  intro s stack hs hdepth
  simp only [Value.depth, membersDepth] at hdepth
  refine ⟨complete (.object []) stack, ?_, .refl _⟩
  rw [feed_cons (step_openObject hs (by omega)),
    feed_append (State.feed_blank hw fun _ hc => awaitsKey_firstKey.space _ hc)]
  exact feed_singleton rfl

/-- **Members between braces** are read as an object. -/
theorem readsAs_object (h : ReadsAsMembers t ms) :
    ReadsAs ('\x7b' :: (t ++ ['\x7d'])) (.object ms) := by
  intro s stack hs hdepth
  simp only [Value.depth] at hdepth
  obtain ⟨u, hu, hlike⟩ := h ⟨.firstKey, stack⟩ [] stack awaitsKey_firstKey (by omega)
  refine ⟨complete (.object (putAll [] (mergedMembers ms))) stack, ?_, .refl _⟩
  rw [feed_cons (step_openObject hs (by omega)), feed_append hu]
  -- the brace is taken as behind the last member
  refine feed_singleton ((hlike.step '\x7d' (by simp [EndsValue])).trans ?_)
  simp [step, between, isSpace]

/-! ### What stands inside them -/

/-- White space around a value. -/
theorem readsAs_padded (hw : Blank w) (h : ReadsAs t v) (hw' : Blank w') :
    ReadsAs (w ++ t ++ w') v := by
  intro s stack hs hdepth
  obtain ⟨u, hu, hlike⟩ := h s stack hs hdepth
  -- the first blank ends a number that may still go on, and the others change nothing
  obtain ⟨x, hx, hlike'⟩ := hlike.feed_blank hw' fun _ hc => complete_step_space _ _ hc
  refine ⟨x, ?_, hlike'⟩
  rw [List.append_assoc, feed_append (State.feed_blank hw hs.space), feed_append hu]
  exact hx

theorem readsAsItems_last (h : ReadsAs t v) : ReadsAsItems t [v] := by
  intro s acc stack hs hdepth
  simp only [itemsDepth] at hdepth
  -- the item is read one container deeper
  exact h s (.array acc :: stack) hs (by rw [List.length_cons]; omega)

/-- **An item and the comma behind it**, which leads to where the next item may begin. -/
theorem feed_item_comma {acc : List Value} (h : ReadsAs t v) (hs : Awaits s (.array acc :: stack))
    (hdepth : stack.length + 1 + v.depth ≤ maxDepth) :
    s.feed (t ++ [',']) = .ok ⟨.nextItem (v.merged :: acc), stack⟩ := by
  obtain ⟨u, hu, hlike⟩ := h s (.array acc :: stack) hs (by rw [List.length_cons]; exact hdepth)
  rw [feed_append hu]
  exact feed_singleton
    ((hlike.step ',' (by simp [EndsValue])).trans (by simp [complete, step, between, isSpace]))

/-- An item and a comma in front of items. -/
theorem readsAsItems_more (h : ReadsAs t v) (hs : ReadsAsItems ts vs) :
    ReadsAsItems (t ++ ',' :: ts) (v :: vs) := by
  intro s acc stack haw hdepth
  simp only [itemsDepth] at hdepth
  have hitem := feed_item_comma h haw (by omega)
  -- the items behind the comma are read with this one among those that are there
  obtain ⟨x, hx, hlike⟩ := hs _ (v.merged :: acc) stack awaits_nextItem (by omega)
  refine ⟨x, ?_, ?_⟩
  · rw [List.append_cons, feed_append hitem]
    exact hx
  · simpa [mergedItems] using hlike

/-- **A key and its colon**: blanks, the key in its quotes, blanks and the colon. -/
theorem feed_key_colon {acc : Members} {key : String} (hw : Blank w) (hk : SpellsString k key)
    (hw' : Blank w') (hs : AwaitsKey s acc stack) :
    s.feed (w ++ k ++ w' ++ [':']) = .ok ⟨.value, .object acc key :: stack⟩ := by
  obtain ⟨inside, rfl, hchars⟩ := hk
  have hcolon : feed ⟨.colon acc key, stack⟩ w' = .ok ⟨.colon acc key, stack⟩ :=
    State.feed_blank hw' fun _ hc => between_space (.colon acc key) stack hc
  rw [List.append_assoc, List.append_assoc, feed_append (State.feed_blank hw hs.space),
    List.cons_append, feed_cons hs.quote, feed_append (feed_key_close hchars), feed_append hcolon]
  exact feed_singleton (by simp [step, between, isSpace])

/-- A key, its colon and a value are read as a member. -/
theorem readsAsMember {key : String} (hw : Blank w) (hk : SpellsString k key) (hw' : Blank w')
    (h : ReadsAs t v) : ReadsAsMember (w ++ k ++ w' ++ ':' :: t) (key, v) := by
  intro s acc stack hs hdepth
  -- the value is read in the frame that keeps the key
  obtain ⟨u, hu, hlike⟩ := h _ (.object acc key :: stack) awaits_value
    (by rw [List.length_cons]; exact hdepth)
  refine ⟨u, ?_, hlike⟩
  rw [List.append_cons, feed_append (feed_key_colon hw hk hw' hs)]
  exact hu

/-- **A member and the comma behind it**, which leads to where the next key may begin. -/
theorem feed_member_comma {m : String × Value} {acc : Members} (h : ReadsAsMember t m)
    (hs : AwaitsKey s acc stack) (hdepth : stack.length + 1 + m.2.depth ≤ maxDepth) :
    s.feed (t ++ [',']) = .ok ⟨.nextKey (put m.1 m.2.merged acc), stack⟩ := by
  obtain ⟨u, hu, hlike⟩ := h s acc stack hs hdepth
  rw [feed_append hu]
  exact feed_singleton
    ((hlike.step ',' (by simp [EndsValue])).trans (by simp [step, between, isSpace]))

theorem readsAsMembers_last {m : String × Value} (h : ReadsAsMember t m) :
    ReadsAsMembers t [m] := by
  intro s acc stack hs hdepth
  simp only [membersDepth] at hdepth
  exact h s acc stack hs (by omega)

/-- A member and a comma in front of members. -/
theorem readsAsMembers_more {m : String × Value} (h : ReadsAsMember t m)
    (hs : ReadsAsMembers ts ms) : ReadsAsMembers (t ++ ',' :: ts) (m :: ms) := by
  intro s acc stack haw hdepth
  simp only [membersDepth] at hdepth
  have hmember := feed_member_comma h haw (by omega)
  obtain ⟨x, hx, hlike⟩ := hs _ (put m.1 m.2.merged acc) stack awaitsKey_nextKey (by omega)
  refine ⟨x, ?_, hlike⟩
  rw [List.append_cons, feed_append hmember]
  exact hx

/-! ### Every spelling -/

mutual

/-- **What spells a value is read as it.** -/
theorem Spells.readsAs {t : List Char} {v : Value} : Spells t v → ReadsAs t v
  | .null => readsAs_word (fun _ => rfl) rfl
  | .true => readsAs_word (fun _ => rfl) rfl
  | .false => readsAs_word (fun _ => rfl) rfl
  | .number h => readsAs_number h
  | .string h => readsAs_string h
  | .emptyArray hw => readsAs_emptyArray hw
  | .array h => readsAs_array h.readsAsItems
  | .emptyObject hw => readsAs_emptyObject hw
  | .object h => readsAs_object h.readsAsMembers

theorem SpellsPadded.readsAs {t : List Char} {v : Value} : SpellsPadded t v → ReadsAs t v
  | .mk hw h hw' => readsAs_padded hw h.readsAs hw'

theorem SpellsItems.readsAsItems {t : List Char} {vs : List Value} :
    SpellsItems t vs → ReadsAsItems t vs
  | .last h => readsAsItems_last h.readsAs
  | .more h hs => readsAsItems_more h.readsAs hs.readsAsItems

theorem SpellsMember.readsAsMember {t : List Char} {m : String × Value} :
    SpellsMember t m → ReadsAsMember t m
  | .mk hw hk hw' h => Json.readsAsMember hw hk hw' h.readsAs

theorem SpellsMembers.readsAsMembers {t : List Char} {ms : Members} :
    SpellsMembers t ms → ReadsAsMembers t ms
  | .last h => readsAsMembers_last h.readsAsMember
  | .more h hs => readsAsMembers_more h.readsAsMember hs.readsAsMembers

end

/-- **A text is read as what it spells**, if its containers are not nested too deeply. -/
theorem read_of_spelled {text : String} {v : Value} (h : SpellsPadded text.toList v)
    (hdepth : v.depth ≤ maxDepth) : read text = .ok v.merged := by
  -- a value may begin at the start, and where it is complete the text may end
  obtain ⟨u, hu, hlike⟩ := h.readsAs .start [] awaits_start (by simpa using hdepth)
  exact read_eq_ok_iff.mpr ⟨u, hu, hlike.finish.trans rfl⟩

end TokenForge.Json
