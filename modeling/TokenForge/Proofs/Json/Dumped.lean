import TokenForge.Json.Dump
import TokenForge.Proofs.Json.Integers
import TokenForge.Proofs.Json.Lexed
import TokenForge.Proofs.Number.Told
import TokenForge.Proofs.Text.Record

/-!
# Dumps of values and their parts

The dump of a value, cut at its quotes: the names and brackets of its kinds outside of them, its keys
and strings between them. The parts tell the value, numbers included.

* `Value.layout` — the parts of a value's dump;
* `shows_dumpChars` — the dump has these parts;
* `bodies_layout` — between the quotes stand the strings of the value, in order;
* `layout_shape` — the parts without what stands between the quotes are those of the structure;
* `layout_append_inj` — the parts tell the value.
-/

namespace TokenForge.Json

open Text

mutual

/-- **The parts of a value's dump.** -/
def Value.layout : Value → List Part
  | .null => unquoted "Null".toList
  | .bool b => unquoted "Bool(".toList ++ unquoted (if b then "true" else "false").toList
      ++ unquoted [')']
  | .number n => unquoted "Number(".toList ++ unquoted n.chars ++ unquoted [')']
  | .string s => unquoted "String(".toList ++ [.quoted (textBody s)] ++ unquoted [')']
  | .array vs => unquoted "Array [".toList ++ itemsLayout vs
  | .object ms => unquoted "Object \x7b".toList ++ membersLayout ms

/-- The parts behind the opening bracket. -/
def itemsLayout : List Value → List Part
  | [] => unquoted [']']
  | v :: vs => v.layout ++ moreItemsLayout vs

/-- The parts behind an item. -/
def moreItemsLayout : List Value → List Part
  | [] => unquoted [']']
  | v :: vs => unquoted ", ".toList ++ v.layout ++ moreItemsLayout vs

/-- The parts behind the opening brace. -/
def membersLayout : Members → List Part
  | [] => unquoted ['\x7d']
  | (k, v) :: ms =>
    [.quoted (textBody k)] ++ unquoted ": ".toList ++ v.layout ++ moreMembersLayout ms

/-- The parts behind a member. -/
def moreMembersLayout : Members → List Part
  | [] => unquoted ['\x7d']
  | (k, v) :: ms =>
    unquoted ", ".toList ++ [.quoted (textBody k)] ++ unquoted ": ".toList ++ v.layout
      ++ moreMembersLayout ms

end

/-! ### The parts of a dump -/

/-- What a number is written with may stand in a dump without quotes. -/
theorem isFrame_number (n : Number) : IsFrame n.chars := by
  intro c hc
  obtain ⟨hlow, hhigh⟩ := (areFigures_number n c hc).bounds
  refine ⟨?_, ?_⟩
  · rintro rfl
    exact absurd hlow (by decide)
  · unfold IsControl
    omega

mutual

/-- **The dump of a value has its parts.** -/
theorem shows_dumpChars : ∀ v : Value, Shows v.dumpChars v.layout
  | .null => by
    rw [Value.dumpChars.eq_def, Value.layout]
    exact shows_unquoted (by decide)
  | .bool b => by
    have hword : IsFrame (if b then "true" else "false").toList := by cases b <;> decide
    rw [Value.dumpChars.eq_def, Value.layout]
    exact ((shows_unquoted (by decide)).append (shows_unquoted hword)).append
      (shows_unquoted (by decide))
  | .number n => by
    rw [Value.dumpChars.eq_def, Value.layout]
    exact ((shows_unquoted (by decide)).append (shows_unquoted (isFrame_number n))).append
      (shows_unquoted (by decide))
  | .string s => by
    rw [Value.dumpChars.eq_def, Value.layout]
    exact ((shows_unquoted (by decide)).append (shows_quote s)).append (shows_unquoted (by decide))
  -- an empty container is written in one piece, and its parts are put together of two
  | .array [] => by
    rw [Value.dumpChars.eq_def, Value.layout, itemsLayout]
    exact shows_unquoted (t := "Array []".toList) (by decide)
  | .array (v :: vs) => by
    rw [Value.dumpChars.eq_def, Value.layout, itemsLayout, ← List.append_assoc]
    exact ((shows_unquoted (by decide)).append (shows_dumpChars v)).append (shows_moreDumpedItems vs)
  | .object [] => by
    rw [Value.dumpChars.eq_def, Value.layout, membersLayout]
    exact shows_unquoted (t := "Object \x7b\x7d".toList) (by decide)
  | .object ((k, v) :: ms) => by
    rw [Value.dumpChars.eq_def, Value.layout, membersLayout]
    simp only [← List.append_assoc]
    exact ((((shows_unquoted (by decide)).append (shows_quote k)).append
      (shows_unquoted (by decide))).append (shows_dumpChars v)).append (shows_moreDumpedMembers ms)

/-- What is dumped behind an item has the parts behind it. -/
theorem shows_moreDumpedItems : ∀ vs : List Value, Shows (moreDumpedItems vs) (moreItemsLayout vs)
  | [] => shows_unquoted (by decide)
  | v :: vs => by
    rw [moreDumpedItems, moreItemsLayout]
    exact ((shows_unquoted (by decide)).append (shows_dumpChars v)).append (shows_moreDumpedItems vs)

/-- What is dumped behind a member has the parts behind it. -/
theorem shows_moreDumpedMembers :
    ∀ ms : Members, Shows (moreDumpedMembers ms) (moreMembersLayout ms)
  | [] => shows_unquoted (by decide)
  | (k, v) :: ms => by
    rw [moreDumpedMembers, moreMembersLayout]
    exact ((((shows_unquoted (by decide)).append (shows_quote k)).append
      (shows_unquoted (by decide))).append (shows_dumpChars v)).append (shows_moreDumpedMembers ms)

end

/-- **The parts of a dump as a text.** -/
theorem shows_dump (v : Value) : Shows v.dump.toList v.layout := by
  rw [Value.dump, String.toList_ofList]
  exact shows_dumpChars v

/-! ### The strings of a dump -/

mutual

/-- **Between the quotes of a dump stand the strings of the value**, keys among them, in order. -/
theorem bodies_layout : ∀ v : Value, bodies v.layout = v.texts.map textBody
  | .null => bodies_unquoted _
  | .bool b => by simp [Value.layout, Value.texts]
  | .number n => by simp [Value.layout, Value.texts]
  | .string s => by simp [Value.layout, Value.texts]
  | .array vs => by simp [Value.layout, Value.texts, bodies_itemsLayout vs]
  | .object ms => by simp [Value.layout, Value.texts, bodies_membersLayout ms]

/-- The strings of the items, one item after the other. -/
theorem bodies_itemsLayout : ∀ vs : List Value, bodies (itemsLayout vs) = (itemTexts vs).map textBody
  | [] => bodies_unquoted _
  | v :: vs => by simp [itemsLayout, itemTexts, bodies_layout v, bodies_moreItemsLayout vs]

theorem bodies_moreItemsLayout :
    ∀ vs : List Value, bodies (moreItemsLayout vs) = (itemTexts vs).map textBody
  | [] => bodies_unquoted _
  | v :: vs => by simp [moreItemsLayout, itemTexts, bodies_layout v, bodies_moreItemsLayout vs]

/-- The strings of the members, each behind its key. -/
theorem bodies_membersLayout :
    ∀ ms : Members, bodies (membersLayout ms) = (memberTexts ms).map textBody
  | [] => bodies_unquoted _
  | (k, v) :: ms => by
    simp [membersLayout, memberTexts, bodies_layout v, bodies_moreMembersLayout ms]

theorem bodies_moreMembersLayout :
    ∀ ms : Members, bodies (moreMembersLayout ms) = (memberTexts ms).map textBody
  | [] => bodies_unquoted _
  | (k, v) :: ms => by
    simp [moreMembersLayout, memberTexts, bodies_layout v, bodies_moreMembersLayout ms]

end

/-! ### The structure of a dump -/

mutual

/-- **The structure of a value**: the value with all strings and keys empty. -/
def Value.shape : Value → Value
  | .null => .null
  | .bool b => .bool b
  | .number n => .number n
  | .string _ => .string ""
  | .array vs => .array (itemShapes vs)
  | .object ms => .object (memberShapes ms)

def itemShapes : List Value → List Value
  | [] => []
  | v :: vs => v.shape :: itemShapes vs

def memberShapes : Members → Members
  | [] => []
  | (_, v) :: ms => ("", v.shape) :: memberShapes ms

end

theorem textBody_empty : textBody "" = [] := rfl

mutual

/-- **The parts of a dump without what stands between its quotes** are those of the structure. -/
theorem layout_shape : ∀ v : Value, v.shape.layout = v.layout.map Part.blank
  | .null => by simp [Value.shape, Value.layout]
  | .bool b => by simp [Value.shape, Value.layout]
  | .number n => by simp [Value.shape, Value.layout]
  | .string s => by simp [Value.shape, Value.layout, textBody_empty, Part.blank]
  | .array vs => by simp [Value.shape, Value.layout, layout_itemShapes vs]
  | .object ms => by simp [Value.shape, Value.layout, layout_memberShapes ms]

/-- The items of an array without their strings. -/
theorem layout_itemShapes :
    ∀ vs : List Value, itemsLayout (itemShapes vs) = (itemsLayout vs).map Part.blank
  | [] => by simp [itemShapes, itemsLayout]
  | v :: vs => by simp [itemShapes, itemsLayout, layout_shape v, layout_moreItemShapes vs]

theorem layout_moreItemShapes :
    ∀ vs : List Value, moreItemsLayout (itemShapes vs) = (moreItemsLayout vs).map Part.blank
  | [] => by simp [itemShapes, moreItemsLayout]
  | v :: vs => by simp [itemShapes, moreItemsLayout, layout_shape v, layout_moreItemShapes vs]

/-- The members of an object without their keys and strings. -/
theorem layout_memberShapes :
    ∀ ms : Members, membersLayout (memberShapes ms) = (membersLayout ms).map Part.blank
  | [] => by simp [memberShapes, membersLayout]
  | (k, v) :: ms => by
    simp [memberShapes, membersLayout, layout_shape v, layout_moreMemberShapes ms, textBody_empty,
      Part.blank]

theorem layout_moreMemberShapes :
    ∀ ms : Members, moreMembersLayout (memberShapes ms) = (moreMembersLayout ms).map Part.blank
  | [] => by simp [memberShapes, moreMembersLayout]
  | (k, v) :: ms => by
    simp [memberShapes, moreMembersLayout, layout_shape v, layout_moreMemberShapes ms,
      textBody_empty, Part.blank]

end

/-! ### What the parts tell -/

/-- A whole number is written without a point and without an exponent. -/
theorem ne_mark_of_mem_intDigits {i : Int} {c : Char} (hc : c ∈ intDigits i) :
    c ≠ '.' ∧ c ≠ 'e' := by
  have hdigits (k : Nat) : ∀ c ∈ natDigits k, c ≠ '.' ∧ c ≠ 'e' := by
    intro c hc
    have hdigit := isDigit_of_mem_natDigits hc
    refine ⟨?_, ?_⟩ <;>
    · rintro rfl
      exact absurd hdigit (by decide)
  cases i with
  | ofNat k => exact hdigits k c hc
  | negSucc k =>
    rcases List.mem_cons.mp hc with rfl | hc
    · decide
    · exact hdigits (k + 1) c hc

/-- A real number is never written like a whole one. -/
theorem intDigits_ne_write (i : Int) (x : Binary64) : intDigits i ≠ realFormat.write x := by
  intro h
  rcases realFormat.mark_mem_write x with hpoint | hmark
  · rw [← h] at hpoint
    exact (ne_mark_of_mem_intDigits hpoint).1 rfl
  · rw [← h] at hmark
    exact (ne_mark_of_mem_intDigits hmark).2 rfl

/-- **No two numbers are written alike.** -/
theorem chars_injective : Function.Injective Number.chars := by
  intro m n h
  -- by the kinds of the two numbers: of one kind they are told by their digits
  cases m with
  | whole m =>
    cases n with
    | whole n =>
      have hval : m.val = n.val := intDigits_injective h
      cases m
      cases n
      simpa using hval
    | real y => exact absurd h (intDigits_ne_write m.val y)
  | real x =>
    cases n with
    | whole n => exact absurd h.symm (intDigits_ne_write n.val x)
    | real y => rw [realFormat.write_injective h]

/-- A number is over before the bracket that closes it. -/
theorem bracket_not_mem_chars (n : Number) : ')' ∉ n.chars := fun h =>
  absurd (areFigures_number n _ h).bounds.1 (by decide)

/-- No value is dumped with a closing bracket in front. -/
theorem head?_layout_ne (v : Value) (r : List Part) :
    (v.layout ++ r).head? ≠ some (.outside ']') := by
  cases v <;> simp [Value.layout, unquoted]

mutual

-- By induction on the first value, with what comes behind general: the rest of a container's parts
-- comes behind its first item. The brackets tell the containers from one another and from their ends.
/-- **The parts of a dump tell the value**, whatever comes behind them. -/
theorem layout_append_inj : ∀ (v w : Value) {r s : List Part},
    v.layout ++ r = w.layout ++ s → v = w ∧ r = s
  | .null, w, r, s, h => by
    cases w with
    | null => exact ⟨rfl, List.append_cancel_left h⟩
    | _ => simp [Value.layout, unquoted] at h
  | .bool b, w, r, s, h => by
    cases w with
    | bool b' =>
      cases b <;> cases b' <;> simp [Value.layout, unquoted] at h ⊢
      all_goals exact h
    | _ => simp [Value.layout, unquoted] at h
  -- the bracket behind a number is not one of its characters, so both numbers end there
  | .number m, w, r, s, h => by
    cases w with
    | number n =>
      simp only [Value.layout, List.append_assoc] at h
      have hrest := List.append_cancel_left h
      obtain ⟨hchars, hr⟩ :=
        unquoted_append_inj (bracket_not_mem_chars m) (bracket_not_mem_chars n) hrest
      exact ⟨by rw [chars_injective hchars], hr⟩
    | _ => simp [Value.layout, unquoted] at h
  -- a string is one part, and the part tells the string
  | .string x, w, r, s, h => by
    cases w with
    | string y =>
      simp only [Value.layout, List.append_assoc] at h
      obtain ⟨hquoted, hrest⟩ := List.cons.inj (List.append_cancel_left h)
      rw [textBody_injective (Part.quoted.inj hquoted)]
      exact ⟨rfl, List.append_cancel_left hrest⟩
    | _ => simp [Value.layout, unquoted] at h
  | .array vs, w, r, s, h => by
    cases w with
    | array ws =>
      simp only [Value.layout, List.append_assoc] at h
      obtain ⟨rfl, hr⟩ := itemsLayout_append_inj vs ws (List.append_cancel_left h)
      exact ⟨rfl, hr⟩
    | _ => simp [Value.layout, unquoted] at h
  | .object ms, w, r, s, h => by
    cases w with
    | object ns =>
      simp only [Value.layout, List.append_assoc] at h
      obtain ⟨rfl, hr⟩ := membersLayout_append_inj ms ns (List.append_cancel_left h)
      exact ⟨rfl, hr⟩
    | _ => simp [Value.layout, unquoted] at h

/-- Behind the opening bracket the parts tell the items. -/
theorem itemsLayout_append_inj : ∀ (vs ws : List Value) {r s : List Part},
    itemsLayout vs ++ r = itemsLayout ws ++ s → vs = ws ∧ r = s
  | [], [], r, s, h => ⟨rfl, List.append_cancel_left h⟩
  -- an empty array closes at once, and no item begins like that
  | [], w :: ws, r, s, h => by
    rw [itemsLayout, itemsLayout, List.append_assoc] at h
    exact absurd (congrArg List.head? h).symm (head?_layout_ne w _)
  | v :: vs, [], r, s, h => by
    rw [itemsLayout, itemsLayout, List.append_assoc] at h
    exact absurd (congrArg List.head? h) (head?_layout_ne v _)
  | v :: vs, w :: ws, r, s, h => by
    rw [itemsLayout, itemsLayout, List.append_assoc, List.append_assoc] at h
    obtain ⟨rfl, hrest⟩ := layout_append_inj v w h
    obtain ⟨rfl, hr⟩ := moreItemsLayout_append_inj vs ws hrest
    exact ⟨rfl, hr⟩

/-- Behind an item, a comma or the bracket tells whether there is another one. -/
theorem moreItemsLayout_append_inj : ∀ (vs ws : List Value) {r s : List Part},
    moreItemsLayout vs ++ r = moreItemsLayout ws ++ s → vs = ws ∧ r = s
  | [], [], r, s, h => ⟨rfl, List.append_cancel_left h⟩
  | [], w :: ws, r, s, h => by simp [moreItemsLayout, unquoted] at h
  | v :: vs, [], r, s, h => by simp [moreItemsLayout, unquoted] at h
  | v :: vs, w :: ws, r, s, h => by
    simp only [moreItemsLayout, List.append_assoc] at h
    obtain ⟨rfl, hrest⟩ := layout_append_inj v w (List.append_cancel_left h)
    obtain ⟨rfl, hr⟩ := moreItemsLayout_append_inj vs ws hrest
    exact ⟨rfl, hr⟩

/-- Behind the opening brace the parts tell the members. -/
theorem membersLayout_append_inj : ∀ (ms ns : Members) {r s : List Part},
    membersLayout ms ++ r = membersLayout ns ++ s → ms = ns ∧ r = s
  | [], [], r, s, h => ⟨rfl, List.append_cancel_left h⟩
  | [], (l, w) :: ns, r, s, h => by simp [membersLayout, unquoted] at h
  | (k, v) :: ms, [], r, s, h => by simp [membersLayout, unquoted] at h
  -- the key is the first part, and the value comes behind the colon
  | (k, v) :: ms, (l, w) :: ns, r, s, h => by
    simp only [membersLayout, List.append_assoc] at h
    obtain ⟨hquoted, hmember⟩ := List.cons.inj h
    obtain ⟨rfl, hrest⟩ := layout_append_inj v w (List.append_cancel_left hmember)
    obtain ⟨rfl, hr⟩ := moreMembersLayout_append_inj ms ns hrest
    exact ⟨by rw [textBody_injective (Part.quoted.inj hquoted)], hr⟩

/-- Behind a member, a comma or the brace tells whether there is another one. -/
theorem moreMembersLayout_append_inj : ∀ (ms ns : Members) {r s : List Part},
    moreMembersLayout ms ++ r = moreMembersLayout ns ++ s → ms = ns ∧ r = s
  | [], [], r, s, h => ⟨rfl, List.append_cancel_left h⟩
  | [], (l, w) :: ns, r, s, h => by simp [moreMembersLayout, unquoted] at h
  | (k, v) :: ms, [], r, s, h => by simp [moreMembersLayout, unquoted] at h
  | (k, v) :: ms, (l, w) :: ns, r, s, h => by
    simp only [moreMembersLayout, List.append_assoc] at h
    obtain ⟨hquoted, hmember⟩ := List.cons.inj (List.append_cancel_left h)
    obtain ⟨rfl, hrest⟩ := layout_append_inj v w (List.append_cancel_left hmember)
    obtain ⟨rfl, hr⟩ := moreMembersLayout_append_inj ms ns hrest
    exact ⟨by rw [textBody_injective (Part.quoted.inj hquoted)], hr⟩

end

end TokenForge.Json
