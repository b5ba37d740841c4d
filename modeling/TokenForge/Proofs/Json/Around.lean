import TokenForge.Proofs.Json.Keys

/-!
# What stands around a value

A value inside others has containers around it, from the innermost out: they are the *layers* of its
place. A place is the same in three views. In a value there is something in each layer before it and
after it; in a text there is a front and a back (`Surrounds`), and with the text of a value between
them they spell the value that is filled in; and the compact text of what is filled in has the
compact text of that value between what is written for the layers (`chars_fill`).

* `Surrounds.spellsPadded` — what is between front and back is spelled in its place;
* `Surrounds.awaits` — after the front the machine is where a value may begin;
* `exists_kept` — a place stays where no key on the way to it is given again, and else is lost.
-/

namespace TokenForge.Json

/-- **One container around a place**, with the items or members before and after it. -/
inductive Layer where
  | array (before after : List Value)
  | object (before : Members) (key : String) (after : Members)

/-- Texts in a row, each with a comma behind it. -/
def commaBehind (ts : List (List Char)) : List Char := ts.flatMap (· ++ [','])

/-- Texts in a row, each with a comma before it. -/
def commaBefore (ts : List (List Char)) : List Char := ts.flatMap (',' :: ·)

namespace Layer

def fill : Layer → Value → Value
  | .array before after, v => .array (before ++ v :: after)
  | .object before key after, v => .object (before ++ (key, v) :: after)

/-- The compact text of a container, up to the place. -/
def charsBefore : Layer → List Char
  | .array before _ => '[' :: commaBehind (before.map Value.chars)
  | .object before key _ =>
    '\x7b' :: (commaBehind (before.map memberChars) ++ stringChars key ++ [':'])

/-- The compact text of a container, from the place on. -/
def charsAfter : Layer → List Char
  | .array _ after => moreItems after
  | .object _ _ after => moreMembers after

/-- Whether what is in the place is not put away by a later member with the same key. -/
def IsLast : Layer → Prop
  | .array _ _ => True
  | .object _ key after => key ∉ after.map Prod.fst

/-- **What is left of a layer** when the members of every object are put together: the place is the
same, at the same index of an array, and under the same key of an object, which is there once. -/
inductive KeptAs : Layer → Layer → Prop
  | array {before after : List Value} :
      KeptAs (.array before after) (.array (mergedItems before) (mergedItems after))
  | object {before after before' after' : Members} {key : String} :
      key ∉ before'.map Prod.fst → key ∉ after'.map Prod.fst →
        KeptAs (.object before key after) (.object before' key after')

end Layer

/-- **A value with the given layers around it**, of which the innermost comes first. -/
def fill : List Layer → Value → Value
  | [], v => v
  | layer :: layers, v => fill layers (layer.fill v)

/-- The compact text of what is around a place, up to the place. -/
def charsBefore : List Layer → List Char
  | [] => []
  | layer :: layers => charsBefore layers ++ layer.charsBefore

/-- The compact text of what is around a place, from the place on. -/
def charsAfter : List Layer → List Char
  | [] => []
  | layer :: layers => layer.charsAfter ++ charsAfter layers

/-- **The front and the back of a text around a place**, however the layers are spelled in it. -/
inductive Surrounds : List Layer → List Char → List Char → Prop
  | nil {w w' : List Char} : Blank w → Blank w' → Surrounds [] w w'
  | array {layers : List Layer} {before after : List Value} {ts us : List (List Char)}
      {q r w w' : List Char} :
      Surrounds layers q r → List.Forall₂ SpellsPadded ts before → Blank w →
        Blank w' → List.Forall₂ SpellsPadded us after →
        Surrounds (.array before after :: layers) (q ++ '[' :: (commaBehind ts ++ w))
          (w' ++ commaBefore us ++ ']' :: r)
  | object {layers : List Layer} {before after : Members} {key : String} {ts us : List (List Char)}
      {q r w k w' x x' : List Char} :
      Surrounds layers q r → List.Forall₂ SpellsMember ts before →
        Blank w → SpellsString k key → Blank w' → Blank x →
        Blank x' → List.Forall₂ SpellsMember us after →
        Surrounds (.object before key after :: layers)
          (q ++ '\x7b' :: (commaBehind ts ++ (w ++ k ++ w' ++ [':']) ++ x))
          (x' ++ commaBefore us ++ '\x7d' :: r)

variable {layer : Layer} {layers : List Layer} {q r t : List Char} {ts us : List (List Char)}
  {u v : Value} {s : State} {stack : List Frame}

@[simp] theorem commaBehind_nil : commaBehind [] = [] := rfl

@[simp] theorem commaBehind_cons (t : List Char) (ts : List (List Char)) :
    commaBehind (t :: ts) = t ++ [','] ++ commaBehind ts := List.flatMap_cons

@[simp] theorem commaBefore_nil : commaBefore [] = [] := rfl

@[simp] theorem commaBefore_cons (t : List Char) (ts : List (List Char)) :
    commaBefore (t :: ts) = ',' :: t ++ commaBefore ts := List.flatMap_cons

/-! ### What is spelled -/

/-- **Texts with commas between them**, of which one is looked at. What one text or more of `R` in a
row make is `S`. -/
theorem spells_between {α : Type} {R : List Char → α → Prop} {S : List Char → List α → Prop}
    (hlast : ∀ {t x}, R t x → S t [x])
    (hmore : ∀ {t ts x xs}, R t x → S ts xs → S (t ++ ',' :: ts) (x :: xs))
    {x : α} {before after : List α} (hbefore : List.Forall₂ R ts before) (hx : R t x)
    (hafter : List.Forall₂ R us after) :
    S (commaBehind ts ++ t ++ commaBefore us) (before ++ x :: after) := by
  induction hbefore with
  | nil =>
    rw [commaBehind_nil, List.nil_append, List.nil_append]
    -- from the last one on
    induction hafter generalizing t x with
    | nil =>
      rw [commaBefore_nil, List.append_nil]
      exact hlast hx
    | cons hu _ ih =>
      rw [commaBefore_cons, List.cons_append]
      exact hmore hx (ih hu)
  | cons ht _ ih =>
    -- one text more in front, with its comma behind it
    have hall := hmore ht ih
    simpa using hall

/-- **What is between front and back is spelled in its place.** -/
theorem Surrounds.spellsPadded (h : Surrounds layers q r) (hv : Spells t v) :
    SpellsPadded (q ++ t ++ r) (fill layers v) := by
  induction h generalizing t v with
  | nil hw hw' => exact .mk hw hv hw'
  -- the innermost container is a value of its own, and it stands in the place that the other layers
  -- have
  | array _ hbefore hw hw' hafter ih =>
    have hall := ih (.array (spells_between .last .more hbefore (.mk hw hv hw') hafter))
    simpa [fill, Layer.fill] using hall
  | object _ hbefore hw hk hw' hx hx' hafter ih =>
    have hmember := SpellsMember.mk hw hk hw' (.mk hx hv hx')
    have hall := ih (.object (spells_between .last .more hbefore hmember hafter))
    simpa [fill, Layer.fill] using hall

/-! ### Depth and kind -/

/-- How deep a filled layer is depends on the depth of what is in it. -/
theorem Layer.depth_fill_congr (layer : Layer) (h : u.depth = v.depth) :
    (layer.fill u).depth = (layer.fill v).depth := by
  cases layer with
  | array before after => simp only [fill, Value.depth, itemsDepth_append, itemsDepth, h]
  | object before key after => simp only [fill, Value.depth, membersDepth_append, membersDepth, h]

/-- How deep the layers around a place are depends on the depth of what is in the place. -/
theorem depth_fill_congr (h : u.depth = v.depth) :
    (fill layers u).depth = (fill layers v).depth := by
  induction layers generalizing u v with
  | nil => exact h
  | cons layer layers ih => exact ih (layer.depth_fill_congr h)

/-- Every layer is one container more. -/
theorem le_depth_fill (layers : List Layer) (v : Value) :
    layers.length + v.depth ≤ (fill layers v).depth := by
  induction layers generalizing v with
  | nil => rw [List.length_nil, Nat.zero_add, fill]
  | cons layer layers ih =>
    -- one layer is one container, whatever else it holds
    have hlayer : v.depth + 1 ≤ (layer.fill v).depth := by
      cases layer with
      | array before after =>
        simp only [Layer.fill, Value.depth, itemsDepth_append, itemsDepth]
        omega
      | object before key after =>
        simp only [Layer.fill, Value.depth, membersDepth_append, membersDepth]
        omega
    have houter := ih (layer.fill v)
    rw [List.length_cons, fill]
    omega

/-- The outermost layer decides whether the whole is an object. -/
theorem isObject_fill (h : layers ≠ []) (u v : Value) :
    (fill layers u).isObject = (fill layers v).isObject := by
  obtain ⟨layer, layers, rfl⟩ := List.exists_cons_of_ne_nil h
  rw [fill, fill]
  -- by induction on the layers from the inside out, so that the last one is left
  induction layers generalizing layer u v with
  | nil => cases layer <;> rfl
  | cons outer layers ih => exact ih _ _ outer (by simp)

/-! ### Up to the place -/

open State

/-- Items with a comma behind each lead from where an item may begin to where one may. -/
theorem feed_items {vs acc : List Value} (h : List.Forall₂ SpellsPadded ts vs)
    (hs : Awaits s (.array acc :: stack)) (hdepth : stack.length + 1 + itemsDepth vs ≤ maxDepth) :
    ∃ u acc', s.feed (commaBehind ts) = .ok u ∧ Awaits u (.array acc' :: stack) := by
  induction h generalizing s acc with
  | nil => exact ⟨s, acc, rfl, hs⟩
  | cons hv _ ih =>
    simp only [itemsDepth] at hdepth
    -- behind the comma the next item is awaited, with one more item kept
    obtain ⟨u, acc', hu, haw⟩ := ih awaits_nextItem (by omega)
    refine ⟨u, acc', ?_, haw⟩
    rw [commaBehind_cons, feed_append (feed_item_comma hv.readsAs hs (by omega))]
    exact hu

/-- Members with a comma behind each lead from where a key may begin to where one may. -/
theorem feed_members {ms acc : Members} (h : List.Forall₂ SpellsMember ts ms)
    (hs : AwaitsKey s acc stack) (hdepth : stack.length + 1 + membersDepth ms ≤ maxDepth) :
    ∃ u acc', s.feed (commaBehind ts) = .ok u ∧ AwaitsKey u acc' stack := by
  induction h generalizing s acc with
  | nil => exact ⟨s, acc, rfl, hs⟩
  | cons hm _ ih =>
    simp only [membersDepth] at hdepth
    obtain ⟨u, acc', hu, haw⟩ := ih awaitsKey_nextKey (by omega)
    refine ⟨u, acc', ?_, haw⟩
    rw [commaBehind_cons, feed_append (feed_member_comma hm.readsAsMember hs (by omega))]
    exact hu

/-- **After the front the machine is where a value may begin**, with a frame open for each layer. -/
theorem Surrounds.awaits (h : Surrounds layers q r) (hdepth : (fill layers v).depth ≤ maxDepth) :
    ∃ s stack, State.start.feed q = .ok s ∧ Awaits s stack ∧ stack.length = layers.length := by
  induction h generalizing v with
  | nil hw _ => exact ⟨.start, [], State.feed_blank hw awaits_start.space, awaits_start, rfl⟩
  -- up to the bracket as before; then a frame is opened, and the items in front are read in it
  | @array layers before after _ _ _ _ _ _ _ hbefore hw _ _ ih =>
    have hle := (le_depth_fill layers _).trans hdepth
    simp only [Layer.fill, Value.depth, itemsDepth_append] at hle
    obtain ⟨s, stack, hq, hs, hlen⟩ := ih hdepth
    obtain ⟨u, acc, hu, haw⟩ := feed_items hbefore (@awaits_firstItem stack) (by omega)
    refine ⟨u, _, ?_, haw, by rw [List.length_cons, List.length_cons, hlen]⟩
    rw [feed_append hq, feed_cons (step_openArray hs (by omega)), feed_append hu]
    exact State.feed_blank hw haw.space
  -- the same, and the key and its colon behind the members in front
  | @object layers _ _ key _ _ _ _ _ _ _ _ _ _ hbefore hw hk hw' hx _ _ ih =>
    have hle := (le_depth_fill layers _).trans hdepth
    simp only [Layer.fill, Value.depth, membersDepth_append] at hle
    obtain ⟨s, stack, hq, hs, hlen⟩ := ih hdepth
    obtain ⟨u, acc, hu, haw⟩ := feed_members hbefore (@awaitsKey_firstKey stack) (by omega)
    refine ⟨_, _, ?_, @awaits_value (.object acc key :: stack), by simp [hlen]⟩
    rw [feed_append hq, feed_cons (step_openObject hs (by omega)), List.append_assoc,
      feed_append hu, feed_append (feed_key_colon hw hk hw' haw)]
    exact State.feed_blank hx awaits_value.space

/-- What comes first behind the place is what may follow a value. -/
theorem endsValue_first {w : List Char} {c : Char} (hw : Blank w) (us : List (List Char))
    (hc : EndsValue c) (r : List Char) :
    ∃ d r', w ++ commaBefore us ++ c :: r = d :: r' ∧ EndsValue d := by
  -- white space, a comma if there is more, or else what closes the container
  cases w with
  | cons d w => exact ⟨d, _, rfl, .inl (hw.isSpace List.mem_cons_self)⟩
  | nil =>
    cases us with
    | cons u us => exact ⟨',', _, rfl, .inr (.inl rfl)⟩
    | nil => exact ⟨c, r, rfl, hc⟩

/-- **A value in a container is followed by what may follow a value.** -/
theorem Surrounds.endsValue (h : Surrounds layers q r) (hne : layers ≠ []) :
    ∃ c r', r = c :: r' ∧ EndsValue c := by
  cases h with
  | nil => exact absurd rfl hne
  | array _ _ _ hw' _ => exact endsValue_first hw' _ (.inr (.inr (.inl rfl))) _
  | object _ _ _ _ _ _ hx' _ => exact endsValue_first hx' _ (.inr (.inr (.inr rfl))) _

/-! ### What is written -/

/-- What is written of items in a row, with one of them picked out. -/
theorem moreItems_append (before after : List Value) (v : Value) :
    moreItems (before ++ v :: after) =
      ',' :: (commaBehind (before.map Value.chars) ++ v.chars ++ moreItems after) := by
  induction before with
  | nil => simp [moreItems]
  | cons u us ih => simp [moreItems, ih]

/-- What is written of members in a row, with one of them picked out. -/
theorem moreMembers_append (before after : Members) (m : String × Value) :
    moreMembers (before ++ m :: after) =
      ',' :: (commaBehind (before.map memberChars) ++ memberChars m ++ moreMembers after) := by
  induction before with
  | nil => simp [moreMembers, memberChars]
  | cons n ns ih => simp [moreMembers, memberChars, ih]

/-- A filled layer is written as its two halves, with what is in it between them. -/
theorem Layer.chars_fill (layer : Layer) (v : Value) :
    (layer.fill v).chars = layer.charsBefore ++ v.chars ++ layer.charsAfter := by
  cases layer with
  | array before after =>
    -- the first item has no comma in front, so it depends on whether the place is first
    cases before with
    | nil => simp [fill, charsBefore, charsAfter, Value.chars]
    | cons u us => simp [fill, charsBefore, charsAfter, Value.chars, moreItems_append]
  | object before key after =>
    cases before with
    | nil => simp [fill, charsBefore, charsAfter, Value.chars]
    | cons m ms =>
      simp [fill, charsBefore, charsAfter, Value.chars, moreMembers_append, memberChars]

/-- **What is in a place is written between what is written for its layers.** -/
theorem chars_fill (layers : List Layer) (v : Value) :
    (fill layers v).chars = charsBefore layers ++ v.chars ++ charsAfter layers := by
  induction layers generalizing v with
  | nil => simp [fill, charsBefore, charsAfter]
  | cons layer layers ih => simp [fill, charsBefore, charsAfter, ih, layer.chars_fill]

/-! ### What is left of a place -/

theorem putAll_append (acc ms ns : Members) : putAll acc (ms ++ ns) = putAll (putAll acc ms) ns :=
  List.foldl_append

/-- A key that is among the first members is put there. -/
theorem put_append_of_mem {k : String} {ms : Members} (h : k ∈ ms.map Prod.fst) (v : Value)
    (ns : Members) : put k v (ms ++ ns) = put k v ms ++ ns := by
  induction ms with
  | nil => exact absurd h List.not_mem_nil
  | cons m ms ih =>
    -- the key is that of the first member, or it is among the others
    by_cases hm : m.1 = k
    · simp [put, hm]
    · have hmem : k ∈ ms.map Prod.fst := (List.mem_cons.mp h).resolve_left (Ne.symm hm)
      simp [put, hm, ih hmem]

/-- A key that is not among them is put behind them. -/
theorem put_append_of_not_mem {k : String} {ms : Members} (h : k ∉ ms.map Prod.fst) (v : Value)
    (ns : Members) : put k v (ms ++ ns) = ms ++ put k v ns := by
  induction ms with
  | nil => rfl
  | cons m ms ih =>
    rw [List.map_cons, List.mem_cons, not_or] at h
    rw [List.cons_append, put, if_neg (Ne.symm h.1), ih h.2, List.cons_append]

/-- A member is put in a place that does not depend on its value. -/
theorem exists_put (k : String) (ms : Members) :
    ∃ before after, k ∉ before.map Prod.fst ∧ ∀ v, put k v ms = before ++ (k, v) :: after := by
  induction ms with
  | nil => exact ⟨[], [], List.not_mem_nil, fun _ => rfl⟩
  | cons m ms ih =>
    -- the key is there, and its member is replaced, or it is looked for behind
    by_cases hm : m.1 = k
    · exact ⟨[], ms, List.not_mem_nil, fun v => by simp [put, hm]⟩
    · obtain ⟨before, after, hbefore, hput⟩ := ih
      refine ⟨m :: before, after, ?_, fun v => ?_⟩
      · rw [List.map_cons, List.mem_cons, not_or]
        exact ⟨Ne.symm hm, hbefore⟩
      · rw [put, if_neg hm, hput, List.cons_append]

/-- A member with another key is put beside a place. -/
theorem exists_put_beside {k key : String} (hk : k ≠ key) (w : Value) {before : Members}
    (hbefore : key ∉ before.map Prod.fst) (after : Members) :
    ∃ before' after', key ∉ before'.map Prod.fst ∧
      ∀ v, put k w (before ++ (key, v) :: after) = before' ++ (key, v) :: after' := by
  -- the other key is in front of the place, or it is put behind it
  by_cases hmem : k ∈ before.map Prod.fst
  · refine ⟨put k w before, after, ?_, fun v => put_append_of_mem hmem w _⟩
    rw [keys_put, if_pos hmem]
    exact hbefore
  · refine ⟨before, put k w after, hbefore, fun v => ?_⟩
    rw [put_append_of_not_mem hmem, put, if_neg (Ne.symm hk)]

/-- **Members with other keys leave a place in an object.** -/
theorem exists_putAll_beside {key : String} {ms : Members} (h : key ∉ ms.map Prod.fst)
    {before : Members} (hbefore : key ∉ before.map Prod.fst) (after : Members) :
    ∃ before' after', key ∉ before'.map Prod.fst ∧
      ∀ v, putAll (before ++ (key, v) :: after) ms = before' ++ (key, v) :: after' := by
  induction ms generalizing before after with
  | nil => exact ⟨before, after, hbefore, fun _ => rfl⟩
  | cons m ms ih =>
    rw [List.map_cons, List.mem_cons, not_or] at h
    -- the first member leaves the place, and the others leave what is left of it
    obtain ⟨mid, mid', hmid, hput⟩ := exists_put_beside (Ne.symm h.1) m.2 hbefore after
    obtain ⟨before', after', hbefore', hall⟩ := ih h.2 hmid mid'
    refine ⟨before', after', hbefore', fun v => ?_⟩
    rw [← hall v, ← hput v]
    rfl

/-- **A member with the same key puts away what is in the place.** -/
theorem putAll_congr_of_mem {key : String} {ms : Members} (h : key ∈ ms.map Prod.fst)
    {before : Members} (hbefore : key ∉ before.map Prod.fst) (after : Members) (u v : Value) :
    putAll (before ++ (key, u) :: after) ms = putAll (before ++ (key, v) :: after) ms := by
  induction ms generalizing before after with
  | nil => exact absurd h List.not_mem_nil
  | cons m ms ih =>
    change putAll (put m.1 m.2 _) ms = putAll (put m.1 m.2 _) ms
    by_cases hm : key = m.1
    · -- from here on the two objects are the same
      rw [← hm, put_append_of_not_mem hbefore, put_append_of_not_mem hbefore]
      simp [put]
    · obtain ⟨mid, mid', hmid, hput⟩ := exists_put_beside (Ne.symm hm) m.2 hbefore after
      rw [hput, hput]
      exact ih ((List.mem_cons.mp h).resolve_left hm) hmid mid'

/-- Members are merged each by itself, before their keys are put together. -/
theorem mergedMembers_append_cons (before after : Members) (key : String) (v : Value) :
    mergedMembers (before ++ (key, v) :: after) =
      mergedMembers before ++ (key, v.merged) :: mergedMembers after := by
  simp [mergedMembers_eq_map]

/-- The members up to the place are put together around it, and then come those behind it. -/
theorem exists_merged_fill_object (before : Members) (key : String) (after : Members) :
    ∃ mid mid', key ∉ mid.map Prod.fst ∧ ∀ v : Value,
      (Layer.fill (.object before key after) v).merged =
        .object (putAll (mid ++ (key, v.merged) :: mid') (mergedMembers after)) := by
  obtain ⟨mid, mid', hmid, hput⟩ := exists_put key (putAll [] (mergedMembers before))
  refine ⟨mid, mid', hmid, fun v => ?_⟩
  rw [Layer.fill, Value.merged, mergedMembers_append_cons, putAll_append, ← hput]
  rfl

/-- **What is left of a layer**, if its place is not put away. -/
theorem Layer.exists_keptAs {layer : Layer} (h : layer.IsLast) :
    ∃ kept, KeptAs layer kept ∧ ∀ v : Value, (layer.fill v).merged = kept.fill v.merged := by
  cases layer with
  -- an array keeps all its items, merged
  | array before after =>
    refine ⟨_, .array, fun v => ?_⟩
    simp [fill, Value.merged, mergedItems_append, mergedItems]
  | object before key after =>
    have hafter : key ∉ (mergedMembers after).map Prod.fst := by rwa [keys_mergedMembers]
    obtain ⟨mid, mid', hmid, hmerged⟩ := exists_merged_fill_object before key after
    obtain ⟨before', after', hbefore', hall⟩ := exists_putAll_beside hafter hmid mid'
    refine ⟨.object before' key after', .object hbefore' ?_, fun v => ?_⟩
    · -- an object keeps each key once
      have hnodup := nodup_keys_putAll (mergedMembers (before ++ (key, .null) :: after))
      have hobject := hmerged .null
      rw [hall] at hobject
      rw [Value.object.inj hobject, List.map_append, List.map_cons] at hnodup
      exact (List.nodup_cons.mp hnodup.of_append_right).1
    · rw [hmerged, hall, fill]

/-- What is merged in a layer is what is merged in its place. -/
theorem Layer.merged_fill_congr (layer : Layer) (h : u.merged = v.merged) :
    (layer.fill u).merged = (layer.fill v).merged := by
  cases layer with
  | array before after => simp [fill, Value.merged, mergedItems_append, mergedItems, h]
  | object before key after => simp [fill, Value.merged, mergedMembers_append_cons, h]

/-- What is merged in the layers around a place is what is merged in the place. -/
theorem merged_fill_congr (layers : List Layer) (h : u.merged = v.merged) :
    (fill layers u).merged = (fill layers v).merged := by
  induction layers generalizing u v with
  | nil => exact h
  | cons layer layers ih => exact ih (layer.merged_fill_congr h)

/-- A layer with the key of the place again behind it does not show what is in the place. -/
theorem Layer.merged_fill_of_not_isLast {layer : Layer} (h : ¬layer.IsLast) (u v : Value) :
    (layer.fill u).merged = (layer.fill v).merged := by
  cases layer with
  -- no item of an array puts another one away
  | array before after => exact absurd trivial h
  | object before key after =>
    have hafter : key ∈ (mergedMembers after).map Prod.fst := by
      rw [keys_mergedMembers]
      exact not_not.mp h
    obtain ⟨mid, mid', hmid, hmerged⟩ := exists_merged_fill_object before key after
    rw [hmerged, hmerged, putAll_congr_of_mem hafter hmid mid' u.merged v.merged]

/-- **A place stays** where no key on the way to it is given again. -/
theorem exists_kept (h : ∀ layer ∈ layers, layer.IsLast) :
    ∃ kept, List.Forall₂ Layer.KeptAs layers kept ∧
      ∀ v : Value, (fill layers v).merged = fill kept v.merged := by
  induction layers with
  | nil => exact ⟨[], .nil, fun _ => rfl⟩
  | cons layer layers ih =>
    obtain ⟨hlayer, hlayers⟩ := List.forall_mem_cons.mp h
    -- what is left of the innermost layer stands in what is left of the others
    obtain ⟨inner, hinner, hfill⟩ := Layer.exists_keptAs hlayer
    obtain ⟨kept, hkept, hall⟩ := ih hlayers
    refine ⟨inner :: kept, .cons hinner hkept, fun v => ?_⟩
    rw [fill, hall, hfill, fill]

/-- **A place is lost** where a key on the way to it is given again. -/
theorem merged_fill_of_not_isLast (h : ∃ layer ∈ layers, ¬layer.IsLast) (u v : Value) :
    (fill layers u).merged = (fill layers v).merged := by
  induction layers generalizing u v with
  | nil => exact absurd h (by simp)
  | cons layer layers ih =>
    obtain ⟨lost, hmem, hlost⟩ := h
    -- the key is given again in the innermost layer or further out
    rcases List.mem_cons.mp hmem with rfl | hmem
    · exact merged_fill_congr layers (Layer.merged_fill_of_not_isLast hlost u v)
    · exact ih ⟨lost, hmem, hlost⟩ _ _

end TokenForge.Json
