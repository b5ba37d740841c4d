/-!
# Texts cut at a separator

A text cut in two at the first or at the last place where a character stands, and what is known of
the cut when one side is free of the character.

* `cutFirst?`, `cutLast?` — both sides of the first and of the last such place;
* `takeWhile_append_of_stop`, `dropWhile_append_of_stop` — both sides of the first character that a
  test refuses;
* `length_splitOn` — how many pieces a text has when it is cut at every such place.
-/

namespace TokenForge.Text

/-- **What comes before and after the first** `sep` of a text, if there is one. -/
def cutFirst? (sep : Char) : List Char → Option (List Char × List Char)
  | [] => none
  | c :: cs =>
    if c = sep then some ([], cs) else (cutFirst? sep cs).map fun p => (c :: p.1, p.2)

/-- **What comes before and after the last** `sep` of a text, if there is one. -/
def cutLast? (sep : Char) (text : List Char) : Option (List Char × List Char) :=
  (cutFirst? sep text.reverse).map fun p => (p.2.reverse, p.1.reverse)

variable {sep : Char} {before after : List Char}

/-- A separator with none before it is the first. -/
theorem cutFirst?_append (h : sep ∉ before) :
    cutFirst? sep (before ++ sep :: after) = some (before, after) := by
  induction before with
  | nil => simp [cutFirst?]
  | cons c cs ih =>
    rw [List.mem_cons, not_or] at h
    rw [List.cons_append, cutFirst?, if_neg (Ne.symm h.1), ih h.2]
    rfl

/-- A separator with none after it is the last. -/
theorem cutLast?_append (h : sep ∉ after) :
    cutLast? sep (before ++ sep :: after) = some (before, after) := by
  have hrev : (before ++ sep :: after).reverse = after.reverse ++ sep :: before.reverse := by simp
  have hnot : sep ∉ after.reverse := by rwa [List.mem_reverse]
  rw [cutLast?, hrev, cutFirst?_append hnot]
  simp

/-- What a test takes of a text is all that it accepts, up to the first character that it refuses. -/
theorem takeWhile_append_of_stop {p : Char → Bool} (hbefore : ∀ c ∈ before, p c = true)
    (hstop : ∀ c ∈ after.head?, p c = false) : (before ++ after).takeWhile p = before := by
  have hnone : after.takeWhile p = [] := by
    cases after with
    | nil => rfl
    | cons c cs => rw [List.takeWhile_cons, hstop c rfl, if_neg Bool.false_ne_true]
  rw [List.takeWhile_append_of_pos hbefore, hnone, List.append_nil]

/-- Dropping what stands before a stop leaves what follows. -/
theorem dropWhile_append_of_stop {p : Char → Bool} (hbefore : ∀ c ∈ before, p c = true)
    (hstop : ∀ c ∈ after.head?, p c = false) : (before ++ after).dropWhile p = after := by
  rw [List.dropWhile_append_of_pos hbefore]
  cases after with
  | nil => rfl
  | cons c cs => rw [List.dropWhile_cons, hstop c rfl, if_neg Bool.false_ne_true]

/-- **Every separator makes one piece more.** -/
theorem length_splitOn (sep : Char) (text : List Char) :
    (text.splitOn sep).length = text.count sep + 1 := by
  induction text with
  | nil => simp
  | cons c cs ih =>
    rw [List.splitOn, List.splitOnP_cons_eq_if_modifyHead, List.count_cons]
    rw [List.splitOn] at ih
    by_cases hc : (c == sep) = true
    · rw [if_pos hc, if_pos hc, List.length_cons, ih]
    · rw [if_neg hc, if_neg hc, List.length_modifyHead, ih, Nat.add_zero]

end TokenForge.Text
