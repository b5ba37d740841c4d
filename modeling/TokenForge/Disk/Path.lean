import TokenForge.Text.Quoted

/-!
# Paths

A path is a string of bytes, parted by slashes. Nothing is normalised: a path is shown as it was
given, and joining only decides whether a slash goes between.

* `Path.join` — a path below a directory; an absolute path stays as it is;
* `Path.shown` — a path in a message, `Path.dump` — in a dump.
-/

namespace TokenForge

structure Path where
  bytes : Bytes
  deriving DecidableEq, Repr, Inhabited

namespace Path

def slash : UInt8 := 0x2F

def ofText (s : String) : Path := { bytes := utf8 s }

def isAbsolute (p : Path) : Bool := p.bytes.head? = some slash

/-- **The path `p` seen from the directory `dir`.** A slash goes between them unless `dir` is empty
or ends in one. -/
def join (dir p : Path) : Path :=
  if p.isAbsolute then p
  else if dir.bytes.isEmpty || dir.bytes.getLast? = some slash then
    { bytes := dir.bytes ++ p.bytes }
  else { bytes := dir.bytes ++ slash :: p.bytes }

/-- The path in a message; stray bytes are replaced. -/
def shown (p : Path) : String := String.ofList (Utf8.lossy p.bytes)

/-- The path in a dump; stray bytes are spelled out. -/
def dump (p : Path) : String := Text.quoteBytes p.bytes

end Path

end TokenForge
