/-!
# UTF-8

Texts as bytes and bytes as texts. Bytes come from files, from the command line and from the
environment, and need not be UTF-8; they are cut into *pieces*, each a character or a run of bytes
that begins no character.

* `encode` — the bytes of a text;
* `pieces` — the bytes cut into characters and stray runs. A stray run is the longest part of a
  well-formed character found at that place, and at least one byte;
* `decode?` — the text, when every piece is a character;
* `lossy` — the text with `U+FFFD` in the place of every stray run.
-/

namespace TokenForge

abbrev Bytes := List UInt8

namespace Utf8

/-- The bytes of a text. -/
def encode (cs : List Char) : Bytes := cs.flatMap String.utf8EncodeChar

theorem encode_append (cs ds : List Char) : encode (cs ++ ds) = encode cs ++ encode ds :=
  List.flatMap_append

/-- What a string of bytes is cut into. -/
inductive Piece where
  | char (c : Char)
  /-- Bytes that begin no character. -/
  | stray (bytes : Bytes)
  deriving DecidableEq, Repr

/-- How many bytes follow the lead byte `a` of a character; `none` if `a` leads none. -/
def tails (a : UInt8) : Option Nat :=
  if a < 0x80 then some 0
  else if 0xC2 ≤ a && a ≤ 0xDF then some 1
  else if 0xE0 ≤ a && a ≤ 0xEF then some 2
  else if 0xF0 ≤ a && a ≤ 0xF4 then some 3
  else none

/-- Whether `b` is a continuation byte. -/
def isTail (b : UInt8) : Bool := 0x80 ≤ b && b ≤ 0xBF

/-- **Whether `b` may come second after the lead byte `a`.** Besides being a continuation byte it
must not spell a longer form than needed, a surrogate, or a value above `U+10FFFF`. -/
def isSecond (a b : UInt8) : Bool :=
  isTail b && !(a == 0xE0 && b < 0xA0) && !(a == 0xED && 0x9F < b)
    && !(a == 0xF0 && b < 0x90) && !(a == 0xF4 && 0x8F < b)

/-- The character with lead bits `lead` and the six low bits of each of `bs`. -/
def assemble (lead : Nat) (bs : Bytes) : Char :=
  Char.ofNat (bs.foldl (fun n b => n * 64 + b.toNat % 64) lead)

/-- **The pieces of a string of bytes**, from the front: a character where one is well formed, else
the bytes read before the first that could not continue it. -/
def pieces : Bytes → List Piece
  | [] => []
  | a :: r₁ =>
    match tails a with
    | none => .stray [a] :: pieces r₁
    | some 0 => .char (assemble a.toNat []) :: pieces r₁
    | some n =>
      match r₁ with
      | [] => [.stray [a]]
      | b :: r₂ =>
        if !isSecond a b then .stray [a] :: pieces (b :: r₂)
        else if n = 1 then .char (assemble (a.toNat % 32) [b]) :: pieces r₂
        else match r₂ with
          | [] => [.stray [a, b]]
          | c :: r₃ =>
            if !isTail c then .stray [a, b] :: pieces (c :: r₃)
            else if n = 2 then .char (assemble (a.toNat % 16) [b, c]) :: pieces r₃
            else match r₃ with
              | [] => [.stray [a, b, c]]
              | d :: r₄ =>
                if !isTail d then .stray [a, b, c] :: pieces (d :: r₄)
                else .char (assemble (a.toNat % 8) [b, c, d]) :: pieces r₄

def Piece.char? : Piece → Option Char
  | .char c => some c
  | .stray _ => none

/-- The text that the bytes spell, if every piece is a character. -/
def decode? (bs : Bytes) : Option (List Char) := (pieces bs).mapM Piece.char?

/-- The text with one replacement character for every stray run. -/
def lossy (bs : Bytes) : List Char := (pieces bs).map fun p => p.char?.getD '\ufffd'

end Utf8

/-- The bytes of a text. -/
def utf8 (s : String) : Bytes := Utf8.encode s.toList

@[simp] theorem utf8_ofList (cs : List Char) : utf8 (String.ofList cs) = Utf8.encode cs := by
  rw [utf8, String.toList_ofList]

/-- The text that the bytes spell, if they are UTF-8. -/
def text? (bs : Bytes) : Option String := (Utf8.decode? bs).map String.ofList

end TokenForge
