import TokenForge.Pem.Lenient

/-!
# Armored blocks, read strictly

The reader of key files. A text is a preamble, which is empty or ends in a line feed, one block, and
at most one line ending; the base64 stands in lines of 64 symbols, of which the last may be shorter.

* `Fault` — why a text is not of this form, and `Fault.message`, its wording;
* `skipPreamble`, `splitLabel?`, `stripEnd?` — the three parts of the frame;
* `base64Lines?` — the lines of the base64;
* `decode` — the label and the bytes of the block.
-/

namespace TokenForge.Pem.Strict

/-- Why a text is no textual encoding. -/
inductive Fault where
  /-- No block begins, or a zero byte comes before it. -/
  | preamble
  /-- The label is not well formed, or not followed by dashes and a line ending. -/
  | label
  /-- The text does not end in dashes. -/
  | beginBoundary
  /-- The dashes do not close a line with the same label, on a line of its own. -/
  | endBoundary
  | base64Encoding
  /-- The base64 holds no bytes. -/
  | base64Length
  /-- There seem to be headers. -/
  | headers
  | wrongLabel (expected : String)
  deriving DecidableEq, Repr

def Fault.message : Fault → String
  | .preamble => "PEM preamble contains invalid data (NUL byte)"
  | .label => "PEM type label invalid"
  | .beginBoundary => "PEM error in pre-encapsulation boundary"
  | .endBoundary => "PEM error in post-encapsulation boundary"
  | .base64Encoding => "PEM Base64 error: invalid Base64 encoding"
  | .base64Length => "PEM Base64 error: invalid Base64 length"
  | .headers => "PEM headers disallowed by RFC7468"
  | .wrongLabel expected => "unexpected PEM type label: expecting \"" ++ expected ++ "\""

/-! ### The frame -/

/-- The text from the first mark that follows a line feed. -/
def skipToLine : List Char → Option (List Char)
  | [] => none
  | c :: cs =>
    if c = '\x00' then none
    else if c = '\n' ∧ beginMark.isPrefixOf cs then some cs
    else skipToLine cs

/-- **The text after its preamble**, which a text that begins with the mark does not have. -/
def skipPreamble (text : List Char) : Option (List Char) :=
  if beginMark.isPrefixOf text then some text else skipToLine text

def isLabelChar (c : Char) : Bool := 0x21 ≤ c.toNat && c.toNat ≤ 0x7E && c != '-'

/-- **The label at the front, and what comes after it**, from its first dash on. A space or a tab
stands alone and not at the front. -/
def labelFrom (read : List Char) (gap : Bool) : List Char → Option (List Char × List Char)
  | [] => some (read.reverse, [])
  | c :: cs =>
    if c = '-' then some (read.reverse, c :: cs)
    else if isLabelChar c then labelFrom (c :: read) false cs
    else if (c = ' ' ∨ c = '\t') ∧ read ≠ [] ∧ !gap then labelFrom (c :: read) true cs
    else none

/-- A text after the line ending that it begins with. -/
def stripStart? : List Char → Option (List Char)
  | '\n' :: cs => some cs
  | '\r' :: '\n' :: cs => some cs
  | '\r' :: cs => some cs
  | _ => none

/-- **The label, and what comes after its line.** -/
def splitLabel? (text : List Char) : Option (List Char × List Char) := do
  let (label, rest) ← labelFrom [] false text
  if dashes.isPrefixOf rest then return (label, ← stripStart? (rest.drop dashes.length)) else none

/-- A text before the suffix that it ends in. -/
def before? (suffix text : List Char) : Option (List Char) :=
  if suffix.isSuffixOf text then some (text.take (text.length - suffix.length)) else none

/-- **A text before the line ending that it ends in.** -/
def stripEnd? (text : List Char) : Option (List Char) :=
  match text.reverse with
  | '\n' :: '\r' :: cs => some cs.reverse
  | '\n' :: cs => some cs.reverse
  | '\r' :: cs => some cs.reverse
  | _ => none

/-! ### The base64 -/

/-- The symbols on a line of which more lines follow. -/
def width : Nat := 64

/-- **The lines of the base64.** Every line has 64 symbols and a line ending; what is left after the
last of them is one more line, unless it is empty. -/
def base64Lines? (text : List Char) : Option (List (List Char)) :=
  if text.length ≤ width then
    some (if text = [] then [] else [(stripEnd? text).getD text])
  else
    match _h : stripStart? (text.drop width) with
    | none => none
    | some rest => (base64Lines? rest).map (text.take width :: ·)
termination_by text.length
decreasing_by
  have : rest.length ≤ (text.drop width).length := by
    revert _h
    unfold stripStart?
    split <;> (intro h; simp_all; try omega)
  simp only [List.length_drop] at this
  simp only [width] at *
  omega

/-- **The bytes of the base64 on some lines.** Padding stands at the end of the last line, so there
is none if that line is blank. -/
def bytesOf? (lines : List (List Char)) : Option Bytes :=
  let symbols := lines.flatten
  if lines.getLast? = some [] ∧ symbols.contains '=' then none
  else (Base64.decode (Utf8.encode symbols)).toOption

/-- **The bytes of the base64**, of which there must be some. -/
def unwrap (text : List Char) : Except Fault Bytes :=
  match (base64Lines? text).bind bytesOf? with
  | none => .error .base64Encoding
  | some [] => .error .base64Length
  | some bytes => .ok bytes

/-! ### The whole text -/

/-- Base64 that is no encoding, in a text with a colon, is taken for headers. -/
def blameHeaders (text : List Char) (fault : Fault) : Fault :=
  if fault = .base64Encoding ∧ text.contains ':' then .headers else fault

/-- **The label and the bytes of the block in a text.** -/
def decode (text : List Char) : Except Fault (List Char × Bytes) := do
  let some block := skipPreamble text | throw .preamble
  let some (label, afterLabel) := splitLabel? (block.drop beginMark.length) | throw .label
  let some body := before? dashes ((stripEnd? afterLabel).getD afterLabel)
    | throw .beginBoundary
  let some lines := do stripEnd? (← before? endMark (← before? label body))
    | throw .endBoundary
  let bytes ← (unwrap lines).mapError (blameHeaders text)
  return (label, bytes)

end TokenForge.Pem.Strict
