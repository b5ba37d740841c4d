import TokenForge.Proofs.Json.Machine

/-!
# What is read was spelled

Whatever the machine has taken, up to any state, is the front of a text of the language:
`State.Reads` says which front belongs to which state, `State.Reads.step` that one character more
keeps this, and `spelled_of_read` what follows for a whole text. Of an open container it is known
that items or members put behind what has been spelled of it make its inside (`OpenItems`,
`OpenMembers`).
-/

namespace TokenForge.Json

/-! ### Fronts of containers -/

/-- Text of items, each with a comma behind it: whatever items follow, they are all items. -/
def OpenItems (ts : List Char) (vs : List Value) : Prop :=
  ∀ t us, SpellsItems t us → SpellsItems (ts ++ t) (vs ++ us)

/-- Text of members, each with a comma behind it. -/
def OpenMembers (ts : List Char) (ms : Members) : Prop :=
  ∀ t us, SpellsMembers t us → SpellsMembers (ts ++ t) (ms ++ us)

theorem OpenItems.nil : OpenItems [] [] := fun _ _ h => h

theorem OpenMembers.nil : OpenMembers [] [] := fun _ _ h => h

/-- The last item, which has no comma behind it. -/
theorem OpenItems.close {ts t : List Char} {vs : List Value} {v : Value} (h : OpenItems ts vs)
    (hv : SpellsPadded t v) : SpellsItems (ts ++ t) (vs ++ [v]) :=
  h _ _ (.last hv)

/-- One more item, and its comma. -/
theorem OpenItems.snoc {ts t : List Char} {vs : List Value} {v : Value} (h : OpenItems ts vs)
    (hv : SpellsPadded t v) : OpenItems (ts ++ t ++ [',']) (vs ++ [v]) := by
  intro t' us hus
  rw [List.append_assoc, List.append_assoc, List.append_assoc]
  exact h _ _ (.more hv hus)

theorem OpenMembers.close {ts t : List Char} {ms : Members} {m : String × Value}
    (h : OpenMembers ts ms) (hm : SpellsMember t m) : SpellsMembers (ts ++ t) (ms ++ [m]) :=
  h _ _ (.last hm)

theorem OpenMembers.snoc {ts t : List Char} {ms : Members} {m : String × Value}
    (h : OpenMembers ts ms) (hm : SpellsMember t m) :
    OpenMembers (ts ++ t ++ [',']) (ms ++ [m]) := by
  intro t' us hus
  rw [List.append_assoc, List.append_assoc, List.append_assoc]
  exact h _ _ (.more hm hus)

/-! ### Measures of items and members in a row -/

theorem itemsDepth_append (us vs : List Value) :
    itemsDepth (us ++ vs) = max (itemsDepth us) (itemsDepth vs) := by
  induction us with
  | nil => simp [itemsDepth]
  | cons u us ih => simp only [List.cons_append, itemsDepth, ih, Nat.max_assoc]

theorem itemsDepth_snoc (vs : List Value) (v : Value) :
    itemsDepth (vs ++ [v]) = max (itemsDepth vs) v.depth := by
  rw [itemsDepth_append, itemsDepth, itemsDepth, Nat.max_zero]

theorem membersDepth_append (ms ns : Members) :
    membersDepth (ms ++ ns) = max (membersDepth ms) (membersDepth ns) := by
  induction ms with
  | nil => simp [membersDepth]
  | cons m ms ih => simp only [List.cons_append, membersDepth, ih, Nat.max_assoc]

theorem membersDepth_snoc (ms : Members) (m : String × Value) :
    membersDepth (ms ++ [m]) = max (membersDepth ms) m.2.depth := by
  rw [membersDepth_append, membersDepth, membersDepth, Nat.max_zero]

theorem mergedItems_append (us vs : List Value) :
    mergedItems (us ++ vs) = mergedItems us ++ mergedItems vs := by
  induction us with
  | nil => rfl
  | cons u us ih => simp only [List.cons_append, mergedItems, ih]

theorem mergedItems_snoc (vs : List Value) (v : Value) :
    mergedItems (vs ++ [v]) = mergedItems vs ++ [v.merged] := mergedItems_append vs [v]

theorem mergedMembers_snoc (ms : Members) (m : String × Value) :
    mergedMembers (ms ++ [m]) = mergedMembers ms ++ [(m.1, m.2.merged)] := by
  induction ms with
  | nil => rfl
  | cons u us ih => simp only [List.cons_append, mergedMembers, ih]

/-- The last member is put in last. -/
theorem putAll_snoc (acc ms : Members) (m : String × Value) :
    putAll acc (ms ++ [m]) = put m.1 m.2 (putAll acc ms) := by
  simp [putAll, List.foldl_append]

/-! ### Fronts of texts -/

mutual

/-- **What has been spelled of the open containers**, up to where the value inside the innermost
one may begin. -/
inductive Opened : List Frame → List Char → Prop
  | nil : Opened [] []
  | array {stack : List Frame} {q w ts : List Char} {vs : List Value} :
      Opened stack q → Blank w → OpenItems ts vs →
        stack.length + 1 + itemsDepth vs ≤ maxDepth →
        Opened (.array (mergedItems vs).reverse :: stack) (q ++ w ++ '[' :: ts)
  | object {stack : List Frame} {members : Members} {key : String} {q w k w' : List Char} :
      InObject stack members q → Blank w → SpellsString k key → Blank w' →
        Opened (.object members key :: stack) (q ++ w ++ k ++ w' ++ [':'])

/-- What has been spelled of an object, up to where the next key may begin. -/
inductive InObject : List Frame → Members → List Char → Prop
  | mk {stack : List Frame} {q w ts : List Char} {ms : Members} :
      Opened stack q → Blank w → OpenMembers ts ms →
        stack.length + 1 + membersDepth ms ≤ maxDepth →
        InObject stack (putAll [] (mergedMembers ms)) (q ++ w ++ '\x7b' :: ts)

end

/-- There are no more open containers than may be open. -/
theorem Opened.length_le {stack : List Frame} {q : List Char} (h : Opened stack q) :
    stack.length ≤ maxDepth := by
  -- the innermost container was opened where there was room for it
  cases h with
  | nil => exact Nat.zero_le _
  | array _ _ _ hdepth =>
    rw [List.length_cons]
    omega
  | object hobj _ _ _ =>
    cases hobj with
    | mk _ _ _ hdepth =>
      rw [List.length_cons]
      omega

/-- **What has been spelled when the machine is in a state.** -/
inductive State.Reads : List Char → State → Prop
  | value {stack : List Frame} {q w : List Char} :
      Opened stack q → Blank w → Reads (q ++ w) ⟨.value, stack⟩
  | complete {stack : List Frame} {q w t w' : List Char} {v : Value} :
      Opened stack q → Blank w → Spells t v → stack.length + v.depth ≤ maxDepth → Blank w' →
        Reads (q ++ w ++ t ++ w') (State.complete v.merged stack)
  | firstItem {stack : List Frame} {q w w' : List Char} :
      Opened stack q → Blank w → stack.length < maxDepth → Blank w' →
        Reads (q ++ w ++ '[' :: w') ⟨.firstItem, stack⟩
  | nextItem {stack : List Frame} {items : List Value} {q w : List Char} :
      Opened (.array items :: stack) q → Blank w → Reads (q ++ w) ⟨.nextItem items, stack⟩
  | firstKey {stack : List Frame} {q w w' : List Char} :
      Opened stack q → Blank w → stack.length < maxDepth → Blank w' →
        Reads (q ++ w ++ '\x7b' :: w') ⟨.firstKey, stack⟩
  | nextKey {stack : List Frame} {members : Members} {q w : List Char} :
      InObject stack members q → Blank w → Reads (q ++ w) ⟨.nextKey members, stack⟩
  | key {stack : List Frame} {members : Members} {scan : Scan} {read q w t : List Char} :
      InObject stack members q → Blank w → Scan.Reads t read.reverse scan →
        Reads (q ++ w ++ '"' :: t) ⟨.key members scan read, stack⟩
  | colon {stack : List Frame} {members : Members} {key : String} {q w k w' : List Char} :
      InObject stack members q → Blank w → SpellsString k key → Blank w' →
        Reads (q ++ w ++ k ++ w') ⟨.colon members key, stack⟩
  | string {stack : List Frame} {scan : Scan} {read q w t : List Char} :
      Opened stack q → Blank w → Scan.Reads t read.reverse scan →
        Reads (q ++ w ++ '"' :: t) ⟨.string scan read, stack⟩
  | number {stack : List Frame} {n : Numeral} {q w t : List Char} :
      Opened stack q → Blank w → Numeral.Reads t n → Reads (q ++ w ++ t) ⟨.number n, stack⟩
  | word {stack : List Frame} {c : Char} {cs q w t : List Char} {v : Value} :
      Opened stack q → Blank w → Spells (t ++ c :: cs) v → v.merged = v → v.depth = 0 →
        Reads (q ++ w ++ t) ⟨.word c cs v, stack⟩

namespace State

variable {s t : State} {stack : List Frame} {pre q w w' x : List Char} {c : Char} {v : Value}

/-! ### One character more -/

/-- **The first character of a value.** -/
theorem reads_begin (hq : Opened stack q) (hw : Blank w) (h : begin c stack = .ok t) :
    Reads (q ++ w ++ [c]) t := by
  cases hc : digit? c with
  | some k =>
    -- a digit begins a number that could end there
    obtain ⟨d, rfl, rfl⟩ := eq_char_of_digit? hc
    rw [Literal.begin_digit] at h
    obtain rfl := Except.ok.inj h
    exact .number hq hw (.literal (Literal.state?_ofDigit false d))
  | none =>
    -- the other characters that begin a value, in the order in which the machine asks for them
    unfold begin at h
    rw [hc] at h
    split_ifs at h with hn ht hf hquote hminus harray hroom hobject hroom <;>
      obtain rfl := Except.ok.inj h
    · subst hn
      exact .word hq hw .null rfl rfl
    · subst ht
      exact .word hq hw .true rfl rfl
    · subst hf
      exact .word hq hw .false rfl rfl
    · subst hquote
      exact .string hq hw (.plain .nil)
    · subst hminus
      exact .number hq hw .minus
    · subst harray
      exact .firstItem hq hw hroom .nil
    · subst hobject
      exact .firstKey hq hw hroom .nil

/-- **One character behind an item of an array.** -/
theorem reads_afterItem {items : List Value} (hq : Opened (.array items :: stack) q)
    (hpad : SpellsPadded x v) (hdepth : stack.length + 1 + v.depth ≤ maxDepth)
    (hspace : isSpace c = false)
    (h : between (.afterItem (v.merged :: items)) stack c = .ok t) : Reads (q ++ x ++ [c]) t := by
  cases hq with
  | @array _ q w ts vs hq hw hopen hitems =>
    -- what is known of the array, with the new item in it
    have hnext : stack.length + 1 + itemsDepth (vs ++ [v]) ≤ maxDepth := by
      rw [itemsDepth_snoc]
      omega
    have hmerged : v.merged :: (mergedItems vs).reverse = (mergedItems (vs ++ [v])).reverse := by
      rw [mergedItems_snoc, List.reverse_append]
      rfl
    simp only [between, hspace, Bool.false_eq_true, if_false] at h
    split_ifs at h with hclose hcomma
    · -- the bracket makes the item the last one, and the array a complete value
      obtain rfl := Except.ok.inj h
      subst hclose
      have hvalue : Spells ('[' :: (ts ++ x ++ [']'])) (.array (vs ++ [v])) :=
        .array (hopen.close hpad)
      have hreads := Reads.complete hq hw hvalue
        (by simp only [Value.depth]; omega) .nil
      rw [hmerged, List.reverse_reverse]
      simpa [Value.merged] using hreads
    · -- behind the comma the array is open as before
      obtain rfl := Except.ok.inj h
      subst hcomma
      have hreads := Reads.nextItem (.array hq hw (hopen.snoc hpad) hnext) .nil
      rw [hmerged]
      simpa using hreads

/-- **One character behind a member of an object.** -/
theorem reads_afterMember {members : Members} {key : String}
    (hq : Opened (.object members key :: stack) q)
    (hpad : SpellsPadded x v) (hdepth : stack.length + 1 + v.depth ≤ maxDepth)
    (hspace : isSpace c = false)
    (h : between (.afterMember (put key v.merged members)) stack c = .ok t) :
    Reads (q ++ x ++ [c]) t := by
  cases hq with
  | @object _ _ _ q w k w' hobj hw hkey hw' =>
    cases hobj with
    | @mk _ q u ts ms hq hu hopen hmembers =>
      -- the frame holds the key, so key and value make a member
      have hmember : SpellsMember (w ++ k ++ w' ++ ':' :: x) (key, v) := .mk hw hkey hw' hpad
      have hnext : stack.length + 1 + membersDepth (ms ++ [(key, v)]) ≤ maxDepth := by
        simp only [membersDepth_snoc]
        omega
      have hmerged : put key v.merged (putAll [] (mergedMembers ms)) =
          putAll [] (mergedMembers (ms ++ [(key, v)])) := by
        rw [mergedMembers_snoc, putAll_snoc]
      simp only [between, hspace, Bool.false_eq_true, if_false] at h
      -- the brace ends the object with this member, and a comma leaves it open
      split_ifs at h with hclose hcomma
      · obtain rfl := Except.ok.inj h
        subst hclose
        have hvalue := Spells.object (hopen.close hmember)
        have hreads := Reads.complete hq hu hvalue
          (by simp only [Value.depth]; omega) .nil
        rw [hmerged]
        simpa [Value.merged] using hreads
      · obtain rfl := Except.ok.inj h
        subst hcomma
        have hreads := Reads.nextKey (.mk hq hu (hopen.snoc hmember) hnext) .nil
        rw [hmerged]
        simpa using hreads

/-- **One character behind a complete value.** -/
theorem reads_complete_step (hq : Opened stack q) (hw : Blank w) (hx : Spells x v)
    (hdepth : stack.length + v.depth ≤ maxDepth) (hw' : Blank w')
    (h : (complete v.merged stack).step c = .ok t) : Reads (q ++ w ++ x ++ w' ++ [c]) t := by
  have hpad : SpellsPadded (w ++ x ++ w') v := .mk hw hx hw'
  rw [complete_step] at h
  -- white space may follow; what else may depends on the innermost container
  rcases between_cases h with ⟨hc, rfl⟩ | hc
  · have hreads := Reads.complete hq hw hx hdepth (hw'.snoc hc)
    simpa using hreads
  · cases stack with
    -- nothing but white space stands behind the value of the whole text
    | nil => simp [complete, between, hc] at h
    | cons frame stack =>
      -- the value is one container deeper than the one that it stands in
      rw [List.length_cons] at hdepth
      cases frame with
      | array items =>
        have hreads := reads_afterItem hq hpad hdepth hc h
        simpa using hreads
      | object members key =>
        have hreads := reads_afterMember hq hpad hdepth hc h
        simpa using hreads

/-- White space in front of a value, or its first character. -/
theorem reads_value_step (hq : Opened stack q) (hw : Blank w)
    (h : between .value stack c = .ok t) : Reads (q ++ w ++ [c]) t := by
  rcases between_cases h with ⟨hc, rfl⟩ | hc
  · rw [List.append_assoc]
    exact .value hq (hw.snoc hc)
  · simp only [between, hc, Bool.false_eq_true, if_false] at h
    exact reads_begin hq hw h

/-- One character behind the bracket that opens an array. -/
theorem reads_firstItem_step (hq : Opened stack q) (hw : Blank w) (hroom : stack.length < maxDepth)
    (hw' : Blank w') (h : between .firstItem stack c = .ok t) :
    Reads (q ++ w ++ '[' :: w' ++ [c]) t := by
  rcases between_cases h with ⟨hc, rfl⟩ | hc
  · rw [List.append_assoc, List.cons_append]
    exact .firstItem hq hw hroom (hw'.snoc hc)
  · simp only [between, hc, Bool.false_eq_true, if_false] at h
    split_ifs at h with hclose
    · -- an array without items
      obtain rfl := Except.ok.inj h
      subst hclose
      have hreads := Reads.complete hq hw (.emptyArray hw')
        (by simp only [Value.depth, itemsDepth]; omega) .nil
      simpa [Value.merged, mergedItems] using hreads
    · -- the first item begins, and only now is the array one that has been opened
      have hopen : Opened (.array [] :: stack) (q ++ w ++ ['[']) :=
        .array hq hw .nil (by simp only [itemsDepth]; omega)
      have hreads := reads_begin hopen hw' h
      simpa using hreads

/-- One character behind a comma of an array. -/
theorem reads_nextItem_step {items : List Value} (hq : Opened (.array items :: stack) q)
    (hw : Blank w) (h : between (.nextItem items) stack c = .ok t) : Reads (q ++ w ++ [c]) t := by
  rcases between_cases h with ⟨hc, rfl⟩ | hc
  · rw [List.append_assoc]
    exact .nextItem hq (hw.snoc hc)
  · simp only [between, hc, Bool.false_eq_true, if_false] at h
    -- a bracket is refused behind a comma
    split_ifs at h
    exact reads_begin hq hw h

/-- One character behind the brace that opens an object. -/
theorem reads_firstKey_step (hq : Opened stack q) (hw : Blank w) (hroom : stack.length < maxDepth)
    (hw' : Blank w') (h : between .firstKey stack c = .ok t) :
    Reads (q ++ w ++ '\x7b' :: w' ++ [c]) t := by
  rcases between_cases h with ⟨hc, rfl⟩ | hc
  · rw [List.append_assoc, List.cons_append]
    exact .firstKey hq hw hroom (hw'.snoc hc)
  · simp only [between, hc, Bool.false_eq_true, if_false] at h
    split_ifs at h with hclose hquote
    · -- an object without members
      obtain rfl := Except.ok.inj h
      subst hclose
      have hreads := Reads.complete hq hw (.emptyObject hw')
        (by simp only [Value.depth, membersDepth]; omega) .nil
      simpa [Value.merged, mergedMembers, putAll] using hreads
    · -- the first key begins
      obtain rfl := Except.ok.inj h
      subst hquote
      have hobj : InObject stack [] (q ++ w ++ ['\x7b']) :=
        .mk hq hw .nil (by simp only [membersDepth]; omega)
      have hscan : Scan.Reads [] ([] : List Char).reverse .plain := .plain .nil
      have hreads := Reads.key hobj hw' hscan
      simpa using hreads

/-- One character behind a comma of an object. -/
theorem reads_nextKey_step {members : Members} (hobj : InObject stack members q) (hw : Blank w)
    (h : between (.nextKey members) stack c = .ok t) : Reads (q ++ w ++ [c]) t := by
  rcases between_cases h with ⟨hc, rfl⟩ | hc
  · rw [List.append_assoc]
    exact .nextKey hobj (hw.snoc hc)
  · simp only [between, hc, Bool.false_eq_true, if_false] at h
    -- nothing but a quote begins a key
    split_ifs at h with hquote
    obtain rfl := Except.ok.inj h
    subst hquote
    exact .key hobj hw (.plain .nil)

/-- One character behind a key. -/
theorem reads_colon_step {members : Members} {key : String} {k : List Char}
    (hobj : InObject stack members q) (hw : Blank w) (hkey : SpellsString k key) (hw' : Blank w')
    (h : between (.colon members key) stack c = .ok t) : Reads (q ++ w ++ k ++ w' ++ [c]) t := by
  rcases between_cases h with ⟨hc, rfl⟩ | hc
  · rw [List.append_assoc]
    exact .colon hobj hw hkey (hw'.snoc hc)
  · simp only [between, hc, Bool.false_eq_true, if_false] at h
    split_ifs at h with hcolon
    obtain rfl := Except.ok.inj h
    subst hcolon
    have hreads := Reads.value (.object hobj hw hkey hw') .nil
    simpa using hreads

/-- One character of a key. -/
theorem reads_key_step {members : Members} {scan : Scan} {read : List Char}
    (hobj : InObject stack members q) (hw : Blank w) (hscan : Scan.Reads x read.reverse scan)
    (h : State.step ⟨.key members scan read, stack⟩ c = .ok t) :
    Reads (q ++ w ++ '"' :: x ++ [c]) t := by
  simp only [step] at h
  cases hstep : scan.step c with
  | more next cs =>
    rw [hstep] at h
    obtain rfl := Except.ok.inj h
    rw [List.append_assoc, List.cons_append]
    exact .key hobj hw (by simpa using hscan.step hstep)
  -- the closing quote, which stands between characters, so the key is whole
  | close =>
    rw [hstep] at h
    obtain rfl := Except.ok.inj h
    obtain ⟨rfl, rfl⟩ := Scan.step_eq_close hstep
    cases hscan with
    | plain hchars =>
      have hkey : SpellsString ('"' :: (x ++ ['"'])) (String.ofList read.reverse) :=
        ⟨x, rfl, by simpa using hchars⟩
      have hreads := Reads.colon hobj hw hkey .nil
      simpa using hreads
  | fault cause bytes =>
    rw [hstep] at h
    exact absurd h (by simp)

/-- One character of a string. -/
theorem reads_string_step {scan : Scan} {read : List Char} (hq : Opened stack q) (hw : Blank w)
    (hscan : Scan.Reads x read.reverse scan)
    (h : State.step ⟨.string scan read, stack⟩ c = .ok t) :
    Reads (q ++ w ++ '"' :: x ++ [c]) t := by
  simp only [step] at h
  cases hstep : scan.step c with
  | more next cs =>
    rw [hstep] at h
    obtain rfl := Except.ok.inj h
    rw [List.append_assoc, List.cons_append]
    exact .string hq hw (by simpa using hscan.step hstep)
  -- the same for a string, which is then a complete value
  | close =>
    rw [hstep] at h
    obtain rfl := Except.ok.inj h
    obtain ⟨rfl, rfl⟩ := Scan.step_eq_close hstep
    cases hscan with
    | plain hchars =>
      have hstring : SpellsString ('"' :: (x ++ ['"'])) (String.ofList read.reverse) :=
        ⟨x, rfl, by simpa using hchars⟩
      have hreads := Reads.complete hq hw (.string hstring) hq.length_le .nil
      simpa [Value.merged] using hreads
  | fault cause bytes =>
    rw [hstep] at h
    exact absurd h (by simp)

/-- **A number that may end here**, as the complete value that it is. -/
theorem reads_number_complete {n : Numeral} {y : Number} (hq : Opened stack q) (hw : Blank w)
    (hn : Numeral.Reads x n) (hy : n.finish = .ok y) :
    Spells x (.number y) ∧ Reads (q ++ w ++ x ++ []) (complete (.number y) stack) := by
  have hspells : Spells x (.number y) := by
    -- only a literal may end; what has been read up to a sign, a point or a mark may not
    cases hn with
    | @literal l _ hstate =>
      refine .number ?_
      rw [← Literal.finish_state hstate, hy]
      rfl
    | minus => exact absurd hy (by simp [Numeral.finish])
    | point _ _ => exact absurd hy (by simp [Numeral.finish])
    | mark _ => exact absurd hy (by simp [Numeral.finish])
    | sign _ _ => exact absurd hy (by simp [Numeral.finish])
  exact ⟨hspells, .complete hq hw hspells hq.length_le .nil⟩

/-- One character in or behind a number. -/
theorem reads_number_step {n : Numeral} (hq : Opened stack q) (hw : Blank w)
    (hn : Numeral.Reads x n) (h : State.step ⟨.number n, stack⟩ c = .ok t) :
    Reads (q ++ w ++ x ++ [c]) t := by
  simp only [step] at h
  cases hstep : n.step c with
  | more m =>
    rw [hstep] at h
    obtain rfl := Except.ok.inj h
    rw [List.append_assoc]
    exact .number hq hw (hn.step hstep)
  -- no text is read beyond a fault
  | fault cause =>
    rw [hstep] at h
    exact absurd h (by simp)
  | stop =>
    rw [hstep] at h
    cases hfinish : n.finish with
    | error cause =>
      rw [hfinish] at h
      exact absurd h (by simp)
    | ok y =>
      rw [hfinish] at h
      have hspells := (reads_number_complete hq hw hn hfinish).1
      -- the number is complete before `c`, which then stands behind it
      have hreads : Reads (q ++ w ++ x ++ [] ++ [c]) t :=
        reads_complete_step hq hw hspells hq.length_le .nil ((complete_step _ _ c).trans h)
      simpa using hreads

/-- One letter of a word. -/
theorem reads_word_step {d : Char} {cs : List Char} (hq : Opened stack q) (hw : Blank w)
    (hx : Spells (x ++ d :: cs) v) (hmerged : v.merged = v) (hdepth : v.depth = 0)
    (h : State.step ⟨.word d cs v, stack⟩ c = .ok t) : Reads (q ++ w ++ x ++ [c]) t := by
  simp only [step] at h
  -- only the next letter of the word is taken
  split_ifs at h with hne
  obtain rfl : c = d := not_not.mp hne
  cases cs with
  | nil =>
    -- the last letter: no value inside, so nothing is put together and no room is needed
    obtain rfl := Except.ok.inj h
    have hreads := Reads.complete hq hw hx (by rw [hdepth]; exact hq.length_le) .nil
    rw [hmerged] at hreads
    simpa using hreads
  | cons e es =>
    obtain rfl := Except.ok.inj h
    rw [List.append_assoc]
    exact .word hq hw (by simpa using hx) hmerged hdepth

/-- **One character more.** -/
theorem Reads.step (hr : Reads pre s) (h : s.step c = .ok t) : Reads (pre ++ [c]) t := by
  cases hr with
  | value hq hw => exact reads_value_step hq hw h
  | complete hq hw hx hdepth hw' => exact reads_complete_step hq hw hx hdepth hw' h
  | firstItem hq hw hroom hw' => exact reads_firstItem_step hq hw hroom hw' h
  | nextItem hq hw => exact reads_nextItem_step hq hw h
  | firstKey hq hw hroom hw' => exact reads_firstKey_step hq hw hroom hw' h
  | nextKey hobj hw => exact reads_nextKey_step hobj hw h
  | key hobj hw hscan => exact reads_key_step hobj hw hscan h
  | colon hobj hw hkey hw' => exact reads_colon_step hobj hw hkey hw' h
  | string hq hw hscan => exact reads_string_step hq hw hscan h
  | number hq hw hn => exact reads_number_step hq hw hn h
  | word hq hw hx hmerged hdepth => exact reads_word_step hq hw hx hmerged hdepth h

/-! ### A whole text -/

theorem reads_start : Reads [] .start := .value .nil .nil

/-- **Every character of a stretch.** -/
theorem Reads.feed {cs : List Char} (hr : Reads pre s) (h : s.feed cs = .ok t) :
    Reads (pre ++ cs) t := by
  induction cs generalizing pre s with
  | nil =>
    obtain rfl := Except.ok.inj h
    rw [List.append_nil]
    exact hr
  | cons c cs ih =>
    obtain ⟨u, hstep, hrest⟩ := feed_cons_eq_ok h
    have hreads := ih (hr.step hstep) hrest
    simpa using hreads

/-- A text may end behind a value that stands in no container. -/
theorem spelled_of_complete {u : Value} (hq : Opened stack q) (hw : Blank w) (hx : Spells x v)
    (hdepth : stack.length + v.depth ≤ maxDepth) (hw' : Blank w')
    (h : (complete v.merged stack).finish = .ok u) :
    SpellsPadded (q ++ w ++ x ++ w') v ∧ v.depth ≤ maxDepth ∧ u = v.merged := by
  cases hq with
  | nil => exact ⟨.mk hw hx hw', by simpa using hdepth, (Except.ok.inj h).symm⟩
  -- inside a container the end comes too early
  | array => exact absurd h (by simp [complete, finish, Mode.ended])
  | object => exact absurd h (by simp [complete, finish, Mode.ended])

/-- **The end of the text.** -/
theorem Reads.finish {u : Value} (hr : Reads pre s) (h : s.finish = .ok u) :
    ∃ v, SpellsPadded pre v ∧ v.depth ≤ maxDepth ∧ u = v.merged := by
  cases hr with
  | complete hq hw hx hdepth hw' => exact ⟨_, spelled_of_complete hq hw hx hdepth hw' h⟩
  | @number stack n q w x hq hw hn =>
    cases hfinish : n.finish with
    | error cause =>
      simp only [State.finish, hfinish] at h
      exact absurd h (by simp [bind, Except.bind])
    | ok y =>
      have hspells := (reads_number_complete hq hw hn hfinish).1
      -- a text may end in a number exactly where it may end behind the complete value
      have hlast : (State.complete (Value.number y).merged stack).finish = .ok u := by
        simp only [State.finish, hfinish] at h
        cases stack with
        | nil => exact h
        | cons frame stack => cases frame <;> exact h
      have hend := spelled_of_complete hq hw hspells hq.length_le .nil hlast
      rw [List.append_nil] at hend
      exact ⟨_, hend⟩
  -- no text ends in any other state
  | value _ _ => exact absurd h (by simp [State.finish, Mode.ended])
  | firstItem _ _ _ _ => exact absurd h (by simp [State.finish, Mode.ended])
  | nextItem _ _ => exact absurd h (by simp [State.finish, Mode.ended])
  | firstKey _ _ _ _ => exact absurd h (by simp [State.finish, Mode.ended])
  | nextKey _ _ => exact absurd h (by simp [State.finish, Mode.ended])
  | key _ _ _ => exact absurd h (by simp [State.finish, Mode.ended])
  | colon _ _ _ _ => exact absurd h (by simp [State.finish, Mode.ended])
  | string _ _ _ => exact absurd h (by simp [State.finish, Mode.ended])
  | word _ _ _ _ _ => exact absurd h (by simp [State.finish, Mode.ended])

end State

/-- **What is read is what the text spells.** -/
theorem spelled_of_read {text : String} {u : Value} (h : read text = .ok u) :
    ∃ v, SpellsPadded text.toList v ∧ v.depth ≤ maxDepth ∧ u = v.merged := by
  -- the fronts of the text are followed from the start to its end
  obtain ⟨t, hfeed, hfinish⟩ := read_eq_ok_iff.mp h
  exact (State.reads_start.feed hfeed).finish hfinish

end TokenForge.Json
