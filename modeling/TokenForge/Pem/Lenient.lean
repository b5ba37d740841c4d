import TokenForge.Base64.Padded
import TokenForge.Text.Lines

/-!
# Armored blocks, read leniently

The reader of certificate files. It takes the first block in a text, whatever stands around it,
however its lines are broken and whatever its label is. A block may have headers, which a blank line
parts from the data; they are checked and dropped.

* `Fault` — why there is no block, and `Fault.message`, its wording;
* `Frame` and `frame?` — the first block, still as text;
* `Frame.split` — its headers and its data;
* `decode` — its label and its bytes.
-/

namespace TokenForge.Pem

/-- What opens the line before the data. -/
def beginMark : List Char := ['-', '-', '-', '-', '-', 'B', 'E', 'G', 'I', 'N', ' ']

/-- What opens the line after the data. -/
def endMark : List Char := ['-', '-', '-', '-', '-', 'E', 'N', 'D', ' ']

/-- What closes both lines. -/
def dashes : List Char := ['-', '-', '-', '-', '-']

namespace Lenient

/-- Why a text has no block that can be decoded. -/
inductive Fault where
  /-- A mark is missing. -/
  | framing
  | noBeginLabel
  | noEndLabel
  | labelsDiffer (first last : String)
  | data (fault : Base64.Fault)
  /-- This line among the headers has no colon. -/
  | header (line : String)
  deriving DecidableEq, Repr

def Fault.message : Fault → String
  | .framing => "malformedframing"
  | .noBeginLabel => "missing BEGIN tag"
  | .noEndLabel => "missing END tag"
  | .labelsDiffer first last =>
    "mismatching BEGIN (\"" ++ first ++ "\") and END (\"" ++ last ++ "\") tags"
  | .data fault => "invalid data: " ++ fault.message
  | .header line => "invalid header: " ++ line

structure Frame where
  label : List Char
  /-- What is between the first line and the last. -/
  body : List Char
  endLabel : List Char
  deriving DecidableEq, Repr

/-- White space that is dropped before the body. -/
def isGap (c : Char) : Bool := c = ' ' || c = '\t' || c = '\n' || c = '\r'

/-- **The first block of a text.** -/
def frame? (text : List Char) : Option Frame := do
  let (_, afterBegin) ← Text.seek beginMark text
  let (label, afterLabel) ← Text.seek dashes afterBegin
  let (body, afterBody) ← Text.seek endMark (afterLabel.dropWhile isGap)
  let (endLabel, _) ← Text.seek dashes afterBody
  return { label := label, body := body, endLabel := endLabel }

/-- **The headers and the data of a block**, parted by the first blank line. A blank line between
two CR LF is looked for only if there is none between two LF. -/
def Frame.split (f : Frame) : List Char × List Char :=
  match Text.seek ['\n', '\n'] f.body with
  | some (headers, data) => (headers, data)
  | none => (Text.seek ['\r', '\n', '\r', '\n'] f.body).getD ([], f.body)

def Frame.data (f : Frame) : List Char := f.split.2.filter fun c => !Text.isBlank c

/-- The first line among the headers that has no colon. -/
def Frame.badHeader? (f : Frame) : Option (List Char) :=
  (Text.lines f.split.1).find? fun line => !line.contains ':'

/-- **The label and the bytes of a block.** -/
def Frame.decode (f : Frame) : Except Fault (String × Bytes) := do
  if f.label = [] then throw .noBeginLabel
  if f.endLabel = [] then throw .noEndLabel
  if f.label ≠ f.endLabel then
    throw (.labelsDiffer (String.ofList f.label) (String.ofList f.endLabel))
  let bytes ← (Base64.decode (Utf8.encode f.data)).mapError .data
  match f.badHeader? with
  | some line => throw (.header (String.ofList line))
  | none => return (String.ofList f.label, bytes)

/-- **The label and the bytes of the first block of a text.** -/
def decode (text : String) : Except Fault (String × Bytes) :=
  match frame? text.toList with
  | some f => f.decode
  | none => .error .framing

end Lenient

end TokenForge.Pem
