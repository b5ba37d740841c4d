import TokenForge.Text.Lines

/-!
# The search for a mark

What `seek` finds is there (`seek_eq_some`). The search does not find every mark that is there, as
it never goes back; but it finds one if what comes before cannot be taken for a part of it. That is
so of a text without the first character of the mark (`seek_append`), and of a text without the mark
that ends in a character the mark does not have (`seek_past`).
-/

namespace TokenForge.Text

variable {mark done due read text before after : List Char} {c d : Char}

/-! ### One character -/

@[simp] theorem seekFrom_nil : seekFrom mark due read [] = none := by
  cases due <;> rfl

/-- A character that is not the one that is due starts the search afresh. -/
theorem seekFrom_of_ne (h : c ≠ d) :
    seekFrom mark (d :: due) read (c :: text) = seekFrom mark mark (c :: read) text := by
  rw [seekFrom, if_pos h]

/-- The last character of the mark completes it. -/
theorem seekFrom_last :
    seekFrom mark [d] read (d :: text) = some ((read.drop (mark.length - 1)).reverse, text) := by
  simp [seekFrom]

/-- A character of the mark that is not its last one is counted. -/
theorem seekFrom_more :
    seekFrom mark (d :: c :: due) read (d :: text) = seekFrom mark (c :: due) (d :: read) text := by
  simp [seekFrom]

/-! ### What is found -/

/-- The invariant of the search: `done` is what was read of the mark, and `done` and `due` make the
mark. -/
theorem seekFrom_eq_some (hmark : done ++ due = mark)
    (h : seekFrom mark due (done.reverse ++ read) text = some (before, after)) :
    read.reverse ++ (done ++ text) = before ++ (mark ++ after) := by
  induction text generalizing done due read with
  | nil => simp at h
  | cons c cs ih =>
    rcases due with _ | ⟨d, due⟩
    · simp [seekFrom] at h
    by_cases hc : c = d
    · subst hc
      rcases due with _ | ⟨d, due⟩
      -- the mark is complete, so `done` is all of it but its last character
      · rw [seekFrom_last] at h
        obtain ⟨rfl, rfl⟩ := Prod.mk.inj (Option.some.inj h)
        subst hmark
        simp
      · have hread : c :: (done.reverse ++ read) = (done ++ [c]).reverse ++ read := by simp
        rw [seekFrom_more, hread] at h
        have hnext := ih (by rw [← hmark]; simp) h
        rw [← hnext]
        simp
    -- nothing read so far counts for the mark any more
    · rw [seekFrom_of_ne hc] at h
      have hnext := ih (List.nil_append mark) h
      rw [← hnext]
      simp

/-- **What is found is there.** -/
theorem seek_eq_some (h : seek mark text = some (before, after)) :
    text = before ++ (mark ++ after) := by
  have htext := seekFrom_eq_some (List.nil_append mark) h
  simpa using htext

theorem seek_eq_none (h : ¬mark <:+: text) : seek mark text = none := by
  cases hseek : seek mark text with
  | none => rfl
  | some p =>
    refine absurd ⟨p.1, p.2, ?_⟩ h
    rw [seek_eq_some hseek, List.append_assoc]

/-! ### Where something is found -/

/-- What is left of the mark is found if it comes next. -/
theorem seekFrom_due (hmark : done ++ due = mark) (hdue : due ≠ []) :
    seekFrom mark due (done.reverse ++ read) (due ++ after) = some (read.reverse, after) := by
  induction due generalizing done with
  | nil => exact absurd rfl hdue
  | cons d due ih =>
    rcases due with _ | ⟨d', due⟩
    · subst hmark
      rw [List.cons_append, seekFrom_last]
      simp
    · have hread : d :: (done.reverse ++ read) = (done ++ [d]).reverse ++ read := by simp
      rw [List.cons_append, List.cons_append, seekFrom_more, hread]
      exact ih (by rw [← hmark]; simp) (by simp)

theorem seekFrom_mark (hne : mark ≠ []) :
    seekFrom mark mark read (mark ++ after) = some (read.reverse, after) :=
  seekFrom_due (List.nil_append mark) hne

/-- A text without the first character of the mark is skipped. -/
theorem seekFrom_skip (h : d ∉ before) :
    seekFrom (d :: due) (d :: due) read (before ++ text) =
      seekFrom (d :: due) (d :: due) (before.reverse ++ read) text := by
  induction before generalizing read with
  | nil => rfl
  | cons c cs ih =>
    rw [List.mem_cons, not_or] at h
    rw [List.cons_append, seekFrom_of_ne (Ne.symm h.1), ih h.2]
    simp

/-- **A mark is found behind a text without its first character.** -/
theorem seek_append (h : d ∉ before) :
    seek (d :: due) (before ++ (d :: due ++ after)) = some (before, after) := by
  rw [seek, seekFrom_skip h, seekFrom_mark (by simp)]
  simp

/-- A search that found nothing starts afresh behind a character the mark does not have. -/
theorem seekFrom_past (hdue : due ≠ []) (hne : mark ≠ []) (hc : c ∉ mark) (hcdue : c ∉ due)
    (h : seekFrom mark due read before = none) :
    seekFrom mark due read (before ++ c :: text) =
      seekFrom mark mark (c :: (before.reverse ++ read)) text := by
  -- for any part of the mark that is due, as the search may be inside the mark when it comes to `c`
  induction before generalizing due read with
  | nil =>
    rcases due with _ | ⟨d, due⟩
    · exact absurd rfl hdue
    · rw [List.mem_cons, not_or] at hcdue
      exact seekFrom_of_ne hcdue.1
  | cons b bs ih =>
    rcases due with _ | ⟨d, due⟩
    · exact absurd rfl hdue
    by_cases hb : b = d
    · subst hb
      rcases due with _ | ⟨d, due⟩
      · simp [seekFrom_last] at h
      · rw [seekFrom_more] at h
        rw [List.mem_cons, not_or] at hcdue
        rw [List.cons_append, seekFrom_more, ih (by simp) hcdue.2 h]
        simp
    · rw [seekFrom_of_ne hb] at h
      rw [List.cons_append, seekFrom_of_ne hb, ih hne hc h]
      simp

/-- **A mark is found behind a text without it** that ends in a character the mark does not have. -/
theorem seek_past (hne : mark ≠ []) (hc : c ∉ mark) (h : ¬mark <:+: before) :
    seek mark (before ++ c :: (mark ++ after)) = some (before ++ [c], after) := by
  rw [seek, seekFrom_past hne hne hc hc (seek_eq_none h), seekFrom_mark hne]
  simp

end TokenForge.Text
