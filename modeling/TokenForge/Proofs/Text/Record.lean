import Mathlib.Data.List.Forall2
import TokenForge.Proofs.Text.Quoted
import TokenForge.Text.Record

/-!
# Dumps and their parts

A dump is put together of texts without quotes, of quoted texts, and of lists and records of these.
So are its parts: the parts of a record are the characters of its frame with the parts of its fields
among them.

* `Shows` — a stretch of a dump and its parts: it has no control character, and every quote between
  its quotes has a backslash;
* `Unforged` — the same of a whole dump, and `Shows.unforged`;
* `shows_quote`, `shows_quoteBytes`, `shows_listed`, `shows_record` — what dumps are put together of.
-/

namespace TokenForge.Text

variable {b t t' : List Char} {ps ps' : List Part}

/-- **A stretch of a dump and its parts**, whatever comes behind it. -/
structure Shows (t : List Char) (parts : List Part) : Prop where
  scans : Scans t parts
  printed : IsPrinted t
  isBody : ∀ body ∈ bodies parts, IsBody body

/-- **Stretches of a dump in a row** show their parts in a row. -/
theorem Shows.append (h : Shows t ps) (h' : Shows t' ps') : Shows (t ++ t') (ps ++ ps') where
  scans := h.scans.append h'.scans
  printed := isPrinted_append.mpr ⟨h.printed, h'.printed⟩
  isBody := by
    rw [bodies_append]
    exact List.forall_mem_append.mpr ⟨h.isBody, h'.isBody⟩

/-- A text that a dump may show without quotes around it. -/
def IsFrame (cs : List Char) : Prop := ∀ c ∈ cs, c ≠ '"' ∧ ¬IsControl c

instance : DecidablePred IsFrame := fun cs => List.decidableBAll _ cs

/-- **A frame** shows its characters. -/
theorem shows_unquoted (h : IsFrame t) : Shows t (unquoted t) where
  scans := scans_unquoted fun hquote => (h _ hquote).1 rfl
  printed := fun c hc => (h c hc).2
  isBody := by simp

/-- **A text between quotes** is one part. -/
theorem shows_quoted (hbody : IsBody b) (hprinted : IsPrinted b) :
    Shows ('"' :: b ++ ['"']) [.quoted b] where
  scans := hbody.scans
  printed := isPrinted_append.mpr ⟨List.forall_mem_cons.mpr ⟨by decide, hprinted⟩, by decide⟩
  isBody := List.forall_mem_singleton.mpr hbody

/-- **A dump that nothing in it can forge.** It has no control character; it is cut into `parts`, each
quote that opens being closed by the first one that no backslash takes with it; and what stands
between quotes has a backslash in front of every quote. -/
structure Unforged (dump : String) (parts : List Part) : Prop where
  printed : ∀ c ∈ dump.toList, ¬IsControl c
  scanned : scan dump.toList = some parts
  quotes : ∀ body ∈ bodies parts, ∀ front back, body = front ++ '"' :: back →
    front.getLast? = some '\\'

theorem Shows.unforged {dump : String} (h : Shows dump.toList ps) : Unforged dump ps where
  printed := h.printed
  scanned := h.scans.scan_eq
  quotes := fun body hbody _ _ heq => (h.isBody body hbody).backslash_before_quote heq

/-! ### Texts and bytes -/

/-- What stands between the quotes of a text. -/
def textBody (s : String) : List Char := s.toList.flatMap escape

/-- What stands between the quotes of some bytes. -/
def bytesBody (bs : Bytes) : List Char := (Utf8.pieces bs).flatMap escapePiece

/-- Bytes that are a text are quoted as the text is. -/
theorem bytesBody_utf8 (s : String) : bytesBody (utf8 s) = textBody s := flatMap_escapePiece_utf8 s

/-- What stands between the quotes tells the text. -/
theorem textBody_injective : Function.Injective textBody := by
  intro s t h
  exact String.toList_injective (flatMap_escape_injective h)

/-- A quoted text shows what stands between its quotes. -/
theorem shows_quote (s : String) : Shows (quote s).toList [.quoted (textBody s)] := by
  rw [quote, String.toList_ofList]
  exact shows_quoted (isBody_flatMap isBody_escape) (isPrinted_flatMap isPrinted_escape)

/-- Quoted bytes show what stands between their quotes. -/
theorem shows_quoteBytes (bs : Bytes) : Shows (quoteBytes bs).toList [.quoted (bytesBody bs)] := by
  rw [quoteBytes, String.toList_ofList]
  exact shows_quoted (isBody_flatMap isBody_escapePiece) (isPrinted_flatMap isPrinted_escapePiece)

/-! ### Lists and records -/

section Joined

variable {sep : List Char} {ts : List (List Char)} {layouts : List (List Part)}

/-- Stretches with separators between them. -/
theorem shows_intercalate (hsep : IsFrame sep) (h : List.Forall₂ Shows ts layouts) :
    Shows (sep.intercalate ts) ((unquoted sep).intercalate layouts) := by
  induction h with
  | nil => exact shows_unquoted (t := []) (by decide)
  | cons ht hts ih =>
    -- a separator stands in front of a second stretch only
    cases hts with
    | nil =>
      rw [List.intercalate_singleton, List.intercalate_singleton]
      exact ht
    | cons hu hus =>
      rw [List.intercalate_cons_cons, List.intercalate_cons_cons]
      exact (ht.append (shows_unquoted hsep)).append ih

/-- Separators have no quotes in them. -/
theorem bodies_intercalate (xs : List (List Part)) :
    bodies ((unquoted sep).intercalate xs) = xs.flatMap bodies := by
  induction xs with
  | nil => rfl
  | cons x xs ih =>
    cases xs with
    | nil => simp
    | cons y ys => simp [List.intercalate_cons_cons, ih]

/-- Emptying the quotes leaves separators as they are. -/
theorem map_blank_intercalate (xs : List (List Part)) :
    ((unquoted sep).intercalate xs).map Part.blank =
      (unquoted sep).intercalate (xs.map (List.map Part.blank)) := by
  induction xs with
  | nil => rfl
  | cons x xs ih =>
    cases xs with
    | nil => simp
    | cons y ys =>
      simp only [List.map_cons, List.intercalate_cons_cons, List.map_append,
        map_blank_unquoted] at ih ⊢
      rw [ih]

end Joined

/-- The parts of a list. -/
def listedLayout (items : List (List Part)) : List Part :=
  unquoted "[".toList ++ (unquoted ", ".toList).intercalate items ++ unquoted "]".toList

/-- Between the quotes of a list stands what stands between those of its items. -/
theorem bodies_listedLayout (items : List (List Part)) :
    bodies (listedLayout items) = items.flatMap bodies := by
  simp [listedLayout, bodies_intercalate]

theorem map_blank_listedLayout (items : List (List Part)) :
    (listedLayout items).map Part.blank = listedLayout (items.map (List.map Part.blank)) := by
  simp [listedLayout, map_blank_intercalate]

/-- **A list** shows the parts of its items. -/
theorem shows_listed {α : Type} {text : α → String} {parts : α → List Part}
    (h : ∀ x, Shows (text x).toList (parts x)) (xs : List α) :
    Shows (listed (xs.map text)).toList (listedLayout (xs.map parts)) := by
  have hitems : List.Forall₂ Shows (xs.map fun x => (text x).toList) (xs.map parts) :=
    List.forall₂_map_left_iff.mpr
      (List.forall₂_map_right_iff.mpr (List.forall₂_same.mpr fun x _ => h x))
  -- both brackets are frames, and so is the comma between two items
  rw [listed, String.toList_append, String.toList_append, String.toList_intercalate, List.map_map]
  exact ((shows_unquoted (by decide)).append (shows_intercalate (by decide) hitems)).append
    (shows_unquoted (by decide))

/-- The parts of a record with some fields. -/
def recordLayout (name : String) (fields : List (String × List Part)) : List Part :=
  unquoted (name ++ " \x7b ").toList
    ++ (unquoted ", ".toList).intercalate (fields.map fun f => unquoted (f.1 ++ ": ").toList ++ f.2)
    ++ unquoted " \x7d".toList

section Records

variable {name : String}

/-- Between the quotes of a record stands what stands between those of its fields. -/
theorem bodies_recordLayout (fields : List (String × List Part)) :
    bodies (recordLayout name fields) = fields.flatMap fun f => bodies f.2 := by
  simp [recordLayout, bodies_intercalate, List.flatMap_map]

theorem map_blank_recordLayout (fields : List (String × List Part)) :
    (recordLayout name fields).map Part.blank =
      recordLayout name (fields.map fun f => (f.1, f.2.map Part.blank)) := by
  simp [recordLayout, map_blank_intercalate, Function.comp_def]

/-- The parts of the first field of a record come behind its name, and other parts behind them. -/
theorem exists_recordLayout_cons (name field : String) (parts : List Part)
    (fields : List (String × List Part)) :
    ∃ rest, recordLayout name ((field, parts) :: fields) =
      unquoted (name ++ " \x7b ").toList ++ (unquoted (field ++ ": ").toList ++ (parts ++ rest)) := by
  cases fields with
  | nil => exact ⟨unquoted " \x7d".toList, by simp [recordLayout]⟩
  | cons f fs =>
    simp only [recordLayout, List.map_cons, List.intercalate_cons_cons, List.append_assoc]
    exact ⟨_, rfl⟩

/-- Fields with their texts, and the same fields with their parts. -/
inductive ShowsFields : List (String × String) → List (String × List Part) → Prop
  | nil : ShowsFields [] []
  | cons {field text : String} {parts : List Part} {fields : List (String × String)}
      {layouts : List (String × List Part)} :
      IsFrame field.toList → Shows text.toList parts → ShowsFields fields layouts →
        ShowsFields ((field, text) :: fields) ((field, parts) :: layouts)

variable {fields : List (String × String)} {layouts : List (String × List Part)}

/-- A text that ends in a frame is one if its front is. -/
theorem shows_frame {s t : String} (hs : IsFrame s.toList) (ht : IsFrame t.toList) :
    Shows (s ++ t).toList (unquoted (s ++ t).toList) := by
  rw [String.toList_append]
  exact shows_unquoted (List.forall_mem_append.mpr ⟨hs, ht⟩)

theorem ShowsFields.forall₂ (h : ShowsFields fields layouts) :
    List.Forall₂ Shows (fields.map fun f => (f.1 ++ ": " ++ f.2).toList)
      (layouts.map fun f => unquoted (f.1 ++ ": ").toList ++ f.2) := by
  induction h with
  | nil => exact .nil
  | cons hfield htext _ ih =>
    rw [List.map_cons, List.map_cons, String.toList_append]
    exact .cons ((shows_frame hfield (by decide)).append htext) ih

/-- **A record shows the parts of its fields.** -/
theorem shows_record (hname : IsFrame name.toList) (h : ShowsFields fields layouts)
    (hne : fields ≠ []) : Shows (record name fields).toList (recordLayout name layouts) := by
  have hcomma : IsFrame ", ".toList := by decide
  -- a record of no fields has no braces, so there must be one
  have hfields := shows_intercalate hcomma h.forall₂
  rw [record, if_neg (by simpa using hne), recordLayout, String.toList_append, String.toList_append,
    String.toList_intercalate, List.map_map]
  exact ((shows_frame hname (by decide)).append hfields).append (shows_unquoted (by decide))

end Records

end TokenForge.Text
