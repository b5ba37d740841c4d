import TokenForge.Text.Utf8

/-!
# Lines, white space and marks in a text

* `isBlank` — the Unicode property *White_Space*;
* `lines` — the lines of a text; a line ends in LF or CR LF, and the last may lack its end;
* `seek` — what comes before and after a mark. The search never goes back: a character that does not
  continue the mark is skipped even if the mark begins with it, so `-----` followed by a sixth dash
  hides a mark that begins with five.
-/

namespace TokenForge.Text

def isBlank (c : Char) : Bool :=
  let n := c.toNat
  (0x09 ≤ n && n ≤ 0x0D) || n == 0x20 || n == 0x85 || n == 0xA0 || n == 0x1680
    || (0x2000 ≤ n && n ≤ 0x200A) || n == 0x2028 || n == 0x2029 || n == 0x202F || n == 0x205F
    || n == 0x3000

/-- A line without the CR at its end. -/
def dropCr (line : List Char) : List Char :=
  if line.getLast? = some '\r' then line.dropLast else line

/-- The lines of a text, given the characters of the first one that were read, last first. -/
def linesFrom (read : List Char) : List Char → List (List Char)
  | [] => if read.isEmpty then [] else [read.reverse]
  | c :: cs =>
    if c = '\n' then dropCr read.reverse :: linesFrom [] cs else linesFrom (c :: read) cs

/-- **The lines of a text**, without their ends. -/
def lines (text : List Char) : List (List Char) := linesFrom [] text

/-- **The search for a mark.** `due` is what is left of the mark, and `read` what was read, last
first. -/
def seekFrom (mark : List Char) : List Char → List Char → List Char →
    Option (List Char × List Char)
  | _, _, [] => none
  | [], _, _ :: _ => none
  | d :: due, read, c :: cs =>
    if c ≠ d then seekFrom mark mark (c :: read) cs
    else if due.isEmpty then some ((read.drop (mark.length - 1)).reverse, cs)
    else seekFrom mark due (c :: read) cs

/-- **What comes before the first mark that the search finds, and what comes after it.** -/
def seek (mark text : List Char) : Option (List Char × List Char) := seekFrom mark mark [] text

end TokenForge.Text
