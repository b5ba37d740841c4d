import Mathlib.Data.List.Infix

/-!
# Words inside a text

A word without some character cannot lie across that character, so it lies in one of the stretches
of the text between such characters.

* `infix_append_cons_iff` — on which side of a character a word lies;
* `infix_of_infix_append` — a stretch that shares no character with the word is passed over.
-/

namespace TokenForge.Text

variable {word before after mark : List Char} {c : Char}

/-- A word in front without some character ends before it. -/
theorem prefix_of_prefix_append_cons (hc : c ∉ word) (h : word <+: before ++ c :: after) :
    word <+: before := by
  rcases List.prefix_or_prefix_of_prefix h (List.prefix_append before (c :: after)) with h' | h'
  · exact h'
  -- the word would go on with `c`
  · obtain ⟨rest, rfl⟩ := h'
    rw [List.prefix_append_right_inj] at h
    cases rest with
    | nil => simp
    | cons d ds =>
      obtain ⟨rfl, -⟩ := List.cons_prefix_cons.mp h
      exact absurd (by simp) hc

/-- **A word without a character lies on one side of it.** -/
theorem infix_append_cons_iff (hc : c ∉ word) :
    word <:+: before ++ c :: after ↔ word <:+: before ∨ word <:+: after := by
  constructor
  · intro h
    -- the word begins at the first character of the text or behind it
    induction before with
    | nil =>
      rcases List.infix_cons_iff.mp h with h | h
      · have hnil : word <+: [] := prefix_of_prefix_append_cons hc h
        exact .inl hnil.isInfix
      · exact .inr h
    | cons d ds ih =>
      rcases List.infix_cons_iff.mp h with h | h
      · have hprefix : word <+: d :: ds := prefix_of_prefix_append_cons hc h
        exact .inl hprefix.isInfix
      · exact (ih h).imp_left List.infix_cons
  · rintro (h | h)
    · exact h.trans (List.prefix_append _ _).isInfix
    · exact h.trans ((List.suffix_cons c after).trans (List.suffix_append _ _)).isInfix

/-- A stretch that shares no character with a word does not hold any of it. -/
theorem infix_of_infix_append (hmark : ∀ c ∈ mark, c ∉ word) (h : word <:+: mark ++ after) :
    word <:+: after := by
  induction mark with
  | nil => exact h
  | cons c cs ih =>
    have hnil : word <:+: [] ++ c :: (cs ++ after) := h
    rcases (infix_append_cons_iff (hmark c List.mem_cons_self)).mp hnil with h | h
    · rw [List.infix_nil.mp h]
      exact List.nil_infix
    · exact ih (fun d hd => hmark d (List.mem_cons_of_mem c hd)) h

/-- **A word lies on one side of a stretch that shares no character with it.** -/
theorem infix_append_append_iff (hne : mark ≠ []) (hmark : ∀ c ∈ mark, c ∉ word) :
    word <:+: before ++ (mark ++ after) ↔ word <:+: before ∨ word <:+: after := by
  obtain ⟨c, cs, rfl⟩ := List.exists_cons_of_ne_nil hne
  have hcs : ∀ d ∈ cs, d ∉ word := fun d hd => hmark d (List.mem_cons_of_mem c hd)
  rw [List.cons_append, infix_append_cons_iff (hmark c List.mem_cons_self)]
  refine or_congr_right ⟨infix_of_infix_append hcs, fun h => ?_⟩
  exact h.trans (List.suffix_append cs after).isInfix

end TokenForge.Text
