import TokenForge.Proofs.Json.RoundTrip

/-!
# Repeated keys

A text may give a key of an object several times, and may spell it differently each time. What is
kept of the members is one for each key: the keys are in the order in which they first came, and
the value of each is the last that was given for it (`keys_putAll`, `lookup_putAll`). This is so of
every object at every depth (`Value.keptAs_merged`), and so the compact text of what was read has
each key of each object once and in that order (`Payload.read_repeated`).

* `KeptAs` — what a value as it is written is kept as, level by level;
* `chars_object` — the compact text of an object, member by member.
-/

namespace TokenForge.Json

/-! ### One member -/

/-- A member put in adds its key if there is none like it. -/
theorem keys_put (k : String) (v : Value) (ms : Members) :
    (put k v ms).map Prod.fst =
      if k ∈ ms.map Prod.fst then ms.map Prod.fst else ms.map Prod.fst ++ [k] := by
  induction ms with
  | nil => rfl
  | cons m ms ih =>
    -- the member takes the place of one with its key, or goes behind this one
    by_cases hm : m.1 = k
    · simp [put, hm]
    · have hmem : k ∈ (m :: ms).map Prod.fst ↔ k ∈ ms.map Prod.fst :=
        List.mem_cons.trans (or_iff_right (Ne.symm hm))
      rw [put, if_neg hm, List.map_cons, ih]
      by_cases hk : k ∈ ms.map Prod.fst
      · rw [if_pos hk, if_pos (hmem.mpr hk)]
        rfl
      · rw [if_neg hk, if_neg (mt hmem.mp hk)]
        rfl

/-- What is under a key is what the first member with that key holds. -/
theorem lookup_members_cons (m : String × Value) (ms : Members) (key : String) :
    (m :: ms).lookup key = if key = m.1 then some m.2 else ms.lookup key := by
  obtain ⟨k, v⟩ := m
  rw [List.lookup_cons]
  by_cases hkey : key = k
  · simp [hkey]
  · simp [hkey, beq_false_of_ne hkey]

/-- Under its key there is what was put in last, and the others are as they were. -/
theorem lookup_put (k : String) (v : Value) (ms : Members) (key : String) :
    (put k v ms).lookup key = if key = k then some v else ms.lookup key := by
  induction ms with
  | nil => rw [put, lookup_members_cons]
  | cons m ms ih =>
    by_cases hm : m.1 = k
    · rw [put, if_pos hm, lookup_members_cons, lookup_members_cons, hm]
      by_cases hkey : key = k
      · rw [if_pos hkey, if_pos hkey]
      · rw [if_neg hkey, if_neg hkey, if_neg hkey]
    · rw [put, if_neg hm, lookup_members_cons, lookup_members_cons, ih]
      -- another key than `k` stands here, and it hides only itself
      by_cases hkey : key = m.1
      · rw [if_pos hkey, if_pos hkey, if_neg (hkey.trans_ne hm)]
      · rw [if_neg hkey, if_neg hkey]

/-! ### All members -/

/-- **The keys of an object are the keys that were given**, each where it first came. -/
theorem keys_putAll (ms : Members) :
    (putAll [] ms).map Prod.fst = (ms.map Prod.fst).eraseDups := by
  -- from the last member, which adds its key only if none before it has that key
  induction ms using List.reverseRecOn with
  | nil => rfl
  | append_singleton ms m ih =>
    rw [putAll_snoc, keys_put, ih, List.map_append, List.eraseDups_append]
    by_cases hm : m.1 ∈ ms.map Prod.fst
    · rw [if_pos (List.mem_eraseDups.mpr hm)]
      simp [List.removeAll, hm]
    · rw [if_neg (mt List.mem_eraseDups.mp hm)]
      simp [List.removeAll, hm, List.eraseDups_cons]

/-- No key is in an object twice. -/
theorem nodup_keys_putAll (ms : Members) : ((putAll [] ms).map Prod.fst).Nodup := by
  induction ms using List.reverseRecOn with
  | nil => exact List.nodup_nil
  | append_singleton ms m ih =>
    rw [putAll_snoc, keys_put]
    split
    · exact ih
    · next hm =>
      rw [← List.concat_eq_append]
      exact (List.nodup_concat _ _).mpr ⟨hm, ih⟩

/-- **The value of a key is the last that was given for it.** -/
theorem lookup_putAll (ms : Members) (key : String) :
    (putAll [] ms).lookup key = ms.reverse.lookup key := by
  -- from the last member, which decides about its own key and leaves the others
  induction ms using List.reverseRecOn with
  | nil => rfl
  | append_singleton ms m ih =>
    rw [putAll_snoc, lookup_put, ih, List.reverse_append, List.reverse_singleton,
      List.singleton_append, lookup_members_cons]

/-! ### Members whose values are kept -/

/-- Members are put together value by value. -/
theorem mergedMembers_eq_map (ms : Members) :
    mergedMembers ms = ms.map fun m => (m.1, m.2.merged) := by
  induction ms with
  | nil => rfl
  | cons m ms ih => rw [mergedMembers, ih, List.map_cons]

/-- Putting the values together leaves the keys. -/
theorem keys_mergedMembers (ms : Members) :
    (mergedMembers ms).map Prod.fst = ms.map Prod.fst := by
  rw [mergedMembers_eq_map, List.map_map]
  rfl

/-- Under each key there is its value put together. -/
theorem lookup_mergedMembers (ms : Members) (key : String) :
    (mergedMembers ms).reverse.lookup key = (ms.reverse.lookup key).map Value.merged := by
  rw [mergedMembers_eq_map, ← List.map_reverse]
  induction ms.reverse with
  | nil => rfl
  | cons m ms ih =>
    rw [List.map_cons, lookup_members_cons, lookup_members_cons, ih]
    split <;> rfl

/-! ### The compact text of an object -/

/-- A member as it is written. -/
def memberChars (m : String × Value) : List Char := stringChars m.1 ++ ':' :: m.2.chars

/-- A member and what is written behind it, up to the closing brace. -/
theorem memberChars_append_moreMembers (m : String × Value) (ms : Members) :
    memberChars m ++ moreMembers ms =
      [','].intercalate ((m :: ms).map memberChars) ++ ['\x7d'] := by
  induction ms generalizing m with
  | nil => rw [moreMembers, List.map_singleton, List.intercalate_singleton]
  | cons next ms ih =>
    have hmore : moreMembers (next :: ms) = ',' :: (memberChars next ++ moreMembers ms) := by
      obtain ⟨k, v⟩ := next
      simp [moreMembers, memberChars]
    rw [hmore, ih, List.map_cons, List.map_cons, List.map_cons, List.intercalate_cons_cons]
    simp

/-- **The compact text of an object**: its members in their order, with commas between them. -/
theorem chars_object (ms : Members) :
    (Value.object ms).chars = '\x7b' :: ([','].intercalate (ms.map memberChars) ++ ['\x7d']) := by
  cases ms with
  | nil => rfl
  | cons m ms =>
    rw [← memberChars_append_moreMembers, Value.chars, memberChars]
    simp

/-! ### Every level -/

/-- **What a value is kept as**, level by level. An object is kept with the keys that were given for
it, each once and where it first came; the value of a key is what the last value that was given for
it is kept as; and the compact text of the object has these members and no others, in this order. -/
inductive KeptAs : Value → Value → Prop
  | null : KeptAs .null .null
  | bool (b : Bool) : KeptAs (.bool b) (.bool b)
  | number (n : Number) : KeptAs (.number n) (.number n)
  | string (s : String) : KeptAs (.string s) (.string s)
  | array {us vs : List Value} : List.Forall₂ KeptAs us vs → KeptAs (.array us) (.array vs)
  | object {ms ns : Members} :
      (ns.map Prod.fst).Nodup → ns.map Prod.fst = (ms.map Prod.fst).eraseDups →
      (∀ key, Option.Rel KeptAs (ms.reverse.lookup key) (ns.lookup key)) →
      (Value.object ns).chars =
        '\x7b' :: ([','].intercalate (ns.map memberChars) ++ ['\x7d']) →
      KeptAs (.object ms) (.object ns)

theorem mem_of_lookup_reverse {ms : Members} {key : String} {v : Value}
    (h : ms.reverse.lookup key = some v) : (key, v) ∈ ms := by
  obtain ⟨before, after, hms, -⟩ := List.lookup_eq_some_iff.mp h
  rw [← List.mem_reverse, hms]
  exact List.mem_append_right before List.mem_cons_self

/-- If what is inside an object is kept, so is the object. -/
theorem KeptAs.object_merged {ms : Members} (h : ∀ m ∈ ms, KeptAs m.2 m.2.merged) :
    KeptAs (.object ms) (Value.object ms).merged := by
  rw [Value.merged]
  refine .object (nodup_keys_putAll _) ?_ (fun key => ?_) (chars_object _)
  · rw [keys_putAll, keys_mergedMembers]
  · -- under a key there is what was given last for it, put together
    rw [lookup_putAll, lookup_mergedMembers]
    cases hlast : ms.reverse.lookup key with
    | none => exact .none
    | some v => exact .some (h _ (mem_of_lookup_reverse hlast))

mutual

/-- **What is put together is what is kept**, at every level. -/
theorem Value.keptAs_merged : ∀ v : Value, KeptAs v v.merged
  | .null => .null
  | .bool b => .bool b
  | .number n => .number n
  | .string s => .string s
  | .array vs => .array (keptAs_mergedItems vs)
  | .object ms => .object_merged (keptAs_mergedMembers ms)

theorem keptAs_mergedItems : ∀ vs : List Value, List.Forall₂ KeptAs vs (mergedItems vs)
  | [] => .nil
  | v :: vs => .cons v.keptAs_merged (keptAs_mergedItems vs)

theorem keptAs_mergedMembers : ∀ ms : Members, ∀ m ∈ ms, KeptAs m.2 m.2.merged
  | [], _, hm => absurd hm List.not_mem_nil
  | (_, v) :: ms, _, hm => by
    rcases List.mem_cons.mp hm with rfl | hm
    · exact v.keptAs_merged
    · exact keptAs_mergedMembers ms _ hm

end

end TokenForge.Json

namespace TokenForge.Payload

open Json

/-- **Repeated keys.** A text that is read as a payload spells an object, and the payload is what
that object is kept as: in it and in every object inside it each key is there once, where it first
came, with the last value that was given for it, and is written once, in its place. -/
theorem read_repeated {text : String} {v : Value} (h : read text = .ok v) :
    (∃ ms, IsText text (.object ms)) ∧
      ∀ ms, IsText text (.object ms) → ∃ ns, v = .object ns ∧ KeptAs (.object ms) (.object ns) := by
  rcases read_cases text with ⟨ms, hms, hread⟩ | ⟨_, _, _, _, hread⟩ | ⟨_, _, hread⟩
  · refine ⟨⟨ms, hms⟩, fun ms' hms' => ⟨_, ?_, KeptAs.object_merged fun m hm => ?_⟩⟩
    · exact Except.ok.inj (h.symm.trans (read_of_isText_object hms'))
    · exact m.2.keptAs_merged
  -- nothing else is read as a payload
  · exact absurd (h.symm.trans hread) (by simp)
  · exact absurd (h.symm.trans hread) (by simp)

/-- A text with repeated keys at two levels, one of them spelled in two ways. -/
def repeatedText : String :=
  "\x7b\"a\": \x7b\"x\": 1\x7d, \"b\": 0, " ++
    "\"\\u0061\": [\x7b\"y\": 1, \"z\": null, \"y\": \x7b\x7d\x7d]\x7d"

/-- What it is read as. -/
def repeated : Value :=
  .object [("a", .array [.object [("y", .object []), ("z", .null)]]), ("b", .ofWhole { val := 0 })]

/-- A key given twice at each level is there once. -/
theorem read_repeated_twice :
    read repeatedText = .ok repeated ∧ (∃ ms, IsText repeatedText (.object ms)) ∧
      ∀ ms, IsText repeatedText (.object ms) →
        ∃ ns, repeated = .object ns ∧ KeptAs (.object ms) (.object ns) := by
  have hread : read repeatedText = .ok repeated := by rfl
  exact ⟨hread, read_repeated hread⟩

end TokenForge.Payload
