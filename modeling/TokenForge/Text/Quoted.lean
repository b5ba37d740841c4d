import TokenForge.Text.Printable
import TokenForge.Text.Utf8

/-!
# Quoted texts

How a dump shows a text: between double quotes, with the quote, the backslash and every character
that would not show written as an escape. A scanner that skips what follows a backslash finds the
closing quote as the first quote that is left.

* `escape` — one character as a dump shows it;
* `quote` — a whole text;
* `quoteBytes` — bytes that may not be UTF-8; each stray byte is `\xHH`.
-/

namespace TokenForge.Text

/-- The digits of `n` in base 16, in lower case, with no leading zero. -/
def hex (n : Nat) : List Char := Nat.toDigits 16 n

/-- **One character as a dump shows it.** The apostrophe needs no escape between double quotes. -/
def escape (c : Char) : List Char :=
  if c = '\x00' then ['\\', '0']
  else if c = '\t' then ['\\', 't']
  else if c = '\r' then ['\\', 'r']
  else if c = '\n' then ['\\', 'n']
  else if c = '\\' then ['\\', '\\']
  else if c = '"' then ['\\', '"']
  else if isShown c then [c]
  else ['\\', 'u', '\x7b'] ++ hex c.toNat ++ ['\x7d']

def quote (s : String) : String :=
  String.ofList ('"' :: s.toList.flatMap escape ++ ['"'])

/-- A byte as two digits in base 16, in upper case. -/
def byteDigits (b : UInt8) : List Char :=
  [b.toNat / 16, b.toNat % 16].map fun d => (Nat.digitChar d).toUpper

/-- One piece of a string of bytes as a dump shows it. -/
def escapePiece : Utf8.Piece → List Char
  | .char c => escape c
  | .stray bs => bs.flatMap fun b => ['\\', 'x'] ++ byteDigits b

def quoteBytes (bs : Bytes) : String :=
  String.ofList ('"' :: (Utf8.pieces bs).flatMap escapePiece ++ ['"'])

end TokenForge.Text
