import TokenForge.Text.Quoted

/-!
# Texts with quotes in them

A text is cut into the characters outside of its quotes and into what stands between them. Between
quotes a backslash takes the next character with it, whichever it is, and the first quote that is left
closes. What a writer puts between quotes never closes them early if every quote in it, and every
backslash, has a backslash of its own in front (`IsBody`).

* `Part`, `scan` — the parts of a text;
* `bodies`, `Part.blank` — what stands between its quotes, and what is left without it;
* `Scans` — a stretch of text and its parts, whatever comes behind it;
* `IsBody` — what may stand between quotes;
* `IsBody.backslash_before_quote` — no quote in it is without a backslash.
-/

namespace TokenForge.Text

/-- **A part of a text**: a character outside of quotes, or all that stands between two. -/
inductive Part where
  | outside (c : Char)
  | quoted (body : List Char)
  deriving DecidableEq, Repr

/-- How far a text is scanned. -/
inductive Place where
  | outside
  /-- Between quotes, behind these characters. -/
  | inside (body : List Char)
  /-- Between quotes, behind a backslash that takes the next character with it. -/
  | escaped (body : List Char)

/-- **The parts of a text from a place on**, unless it ends between quotes. -/
def scanFrom : Place → List Char → Option (List Part)
  | .outside, [] => some []
  | .inside _, [] => none
  | .escaped _, [] => none
  | .outside, c :: cs =>
    if c = '"' then scanFrom (.inside []) cs else (scanFrom .outside cs).map (.outside c :: ·)
  | .inside body, c :: cs =>
    if c = '"' then (scanFrom .outside cs).map (.quoted body :: ·)
    else if c = '\\' then scanFrom (.escaped (body ++ [c])) cs
    else scanFrom (.inside (body ++ [c])) cs
  | .escaped body, c :: cs => scanFrom (.inside (body ++ [c])) cs

/-- **The parts of a text**, unless it ends between quotes. -/
def scan (cs : List Char) : Option (List Part) := scanFrom .outside cs

example : scan "a\"b\\\"c\"d".toList =
    some [.outside 'a', .quoted "b\\\"c".toList, .outside 'd'] := by decide

/-- What stands between the quotes of a text, in order. -/
def bodies (parts : List Part) : List (List Char) :=
  parts.filterMap fun | .quoted body => some body | .outside _ => none

/-- The parts of a text without quotes. -/
def unquoted (cs : List Char) : List Part := cs.map .outside

@[simp] theorem bodies_unquoted (cs : List Char) : bodies (unquoted cs) = [] := by
  simp [bodies, unquoted, List.filterMap_map]

/-- Texts without quotes that go on with the same character, the first of its kind, are the same. -/
theorem unquoted_append_inj {c : Char} {cs ds : List Char} {ps qs : List Part} (hcs : c ∉ cs)
    (hds : c ∉ ds) (h : unquoted cs ++ .outside c :: ps = unquoted ds ++ .outside c :: qs) :
    cs = ds ∧ ps = qs := by
  -- by induction on the first text; if one of them is over, the other must go on with `c`, which it
  -- has not
  induction cs generalizing ds with
  | nil =>
    cases ds with
    | nil => exact ⟨rfl, (List.cons.inj h).2⟩
    | cons d ds => exact absurd (Part.outside.inj (List.cons.inj h).1) (List.ne_of_not_mem_cons hds)
  | cons e cs ih =>
    cases ds with
    | nil =>
      exact absurd (Part.outside.inj (List.cons.inj h).1).symm (List.ne_of_not_mem_cons hcs)
    | cons d ds =>
      obtain ⟨hhead, htail⟩ := List.cons.inj h
      obtain ⟨rfl, hrest⟩ := ih (List.not_mem_of_not_mem_cons hcs)
        (List.not_mem_of_not_mem_cons hds) htail
      exact ⟨by rw [Part.outside.inj hhead], hrest⟩

@[simp] theorem bodies_quoted (body : List Char) (ps : List Part) :
    bodies (.quoted body :: ps) = body :: bodies ps := rfl

@[simp] theorem bodies_nil : bodies [] = [] := rfl

@[simp] theorem bodies_append (ps qs : List Part) : bodies (ps ++ qs) = bodies ps ++ bodies qs :=
  List.filterMap_append

/-- The part with nothing left between its quotes. -/
def Part.blank : Part → Part
  | .outside c => .outside c
  | .quoted _ => .quoted []

@[simp] theorem map_blank_unquoted (cs : List Char) :
    (unquoted cs).map Part.blank = unquoted cs := by
  simp [unquoted, Part.blank]

@[simp] theorem bodies_map_blank (ps : List Part) :
    bodies (ps.map Part.blank) = (bodies ps).map fun _ => [] := by
  induction ps with
  | nil => rfl
  | cons p ps ih =>
    -- a part outside of quotes adds no body, before or after
    cases p with
    | outside c => exact ih
    | quoted body => exact congrArg ([] :: ·) ih

/-! ### What may stand between quotes -/

/-- **What may stand between quotes**: neither a quote nor a backslash, unless behind a backslash of
its own. -/
inductive IsBody : List Char → Prop
  | nil : IsBody []
  | plain {c : Char} {t : List Char} : c ≠ '"' → c ≠ '\\' → IsBody t → IsBody (c :: t)
  | escaped (c : Char) {t : List Char} : IsBody t → IsBody ('\\' :: c :: t)

variable {b b' t t' : List Char} {ps ps' : List Part}

/-- Two texts in a row may stand between quotes if each of them may. -/
theorem IsBody.append (h : IsBody b) (h' : IsBody b') : IsBody (b ++ b') := by
  induction h with
  | nil => exact h'
  | plain hquote hslash _ ih => exact .plain hquote hslash ih
  | escaped c _ ih => exact .escaped c ih

/-- Neither quotes nor backslashes. -/
theorem isBody_of_plain (h : ∀ c ∈ b, c ≠ '"' ∧ c ≠ '\\') : IsBody b := by
  induction b with
  | nil => exact .nil
  | cons c b ih =>
    obtain ⟨⟨hquote, hslash⟩, hb⟩ := List.forall_mem_cons.mp h
    exact .plain hquote hslash (ih hb)

/-- Any number of texts in a row may stand between quotes if each of them may. -/
theorem isBody_flatMap {α : Type} {f : α → List Char} {xs : List α} (h : ∀ x, IsBody (f x)) :
    IsBody (xs.flatMap f) := by
  induction xs with
  | nil => exact .nil
  | cons x xs ih => exact (h x).append ih

/-- **Every quote between quotes has a backslash in front.** -/
theorem IsBody.backslash_before_quote (h : IsBody b) {front back : List Char}
    (hb : b = front ++ '"' :: back) : front.getLast? = some '\\' := by
  induction h generalizing front with
  | nil => simp at hb
  -- the quote is not the plain character, so it comes behind it
  | @plain c t hquote hslash ht ih =>
    cases front with
    | nil => exact absurd (List.cons.inj hb).1 hquote
    | cons d front =>
      have hlast := ih (List.cons.inj hb).2
      rw [List.getLast?_cons, hlast]
      rfl
  | @escaped c t ht ih =>
    -- the quote may be the character that the backslash takes with it, or stand behind that
    rcases front with _ | ⟨d, _ | ⟨e, front⟩⟩
    · simp at hb
    · simp at hb
      rw [← hb.1]
      rfl
    · have hlast := ih (List.cons.inj (List.cons.inj hb).2).2
      rw [List.getLast?_cons_cons, List.getLast?_cons, hlast]
      rfl

/-- **What may stand between quotes is scanned up to the quote behind it.** -/
theorem IsBody.scanFrom_inside (h : IsBody b) (before rest : List Char) :
    scanFrom (.inside before) (b ++ '"' :: rest) =
      (scan rest).map (.quoted (before ++ b) :: ·) := by
  -- what has been scanned already grows with every character, so it is kept general
  induction h generalizing before with
  | nil => simp [scanFrom, scan]
  -- the scanner takes a plain character alone, and a backslash with the character behind it
  | plain hquote hslash _ ih => simp [scanFrom, hquote, hslash, ih]
  | escaped c _ ih => simp [scanFrom, ih]

/-! ### Stretches of text -/

/-- **The parts of a stretch of text**, whatever comes behind it. -/
def Scans (t : List Char) (parts : List Part) : Prop :=
  ∀ rest, scan (t ++ rest) = (scan rest).map (parts ++ ·)

/-- What is scanned with anything behind it is scanned alone. -/
theorem Scans.scan_eq (h : Scans t ps) : scan t = some ps := by
  have hall := h []
  rwa [List.append_nil, show scan [] = some [] from rfl, Option.map_some, List.append_nil] at hall

/-- **Stretches in a row** have their parts in a row. -/
theorem Scans.append (h : Scans t ps) (h' : Scans t' ps') : Scans (t ++ t') (ps ++ ps') := by
  intro rest
  rw [List.append_assoc, h, h', Option.map_map]
  simp only [Function.comp_def, List.append_assoc]

/-- Text without quotes. -/
theorem scans_unquoted (h : '"' ∉ t) : Scans t (unquoted t) := by
  intro rest
  induction t with
  | nil => simp [unquoted]
  | cons c t ih =>
    rw [List.mem_cons, not_or] at h
    -- no character opens quotes, so the scanner is outside again behind each of them
    have hrest : scanFrom .outside (t ++ rest) = _ := ih h.2
    rw [List.cons_append, scan, scanFrom, if_neg (Ne.symm h.1), hrest, Option.map_map]
    rfl

/-- **Text between quotes.** -/
theorem IsBody.scans (h : IsBody b) : Scans ('"' :: b ++ ['"']) [.quoted b] := by
  intro rest
  -- the first quote opens, and the scanner is inside with nothing read yet
  have hinside := h.scanFrom_inside [] rest
  rw [List.cons_append, List.cons_append, List.append_assoc, scan, scanFrom, if_pos rfl]
  exact hinside

end TokenForge.Text
