import TokenForge.Text.Utf8

/-!
# Numbers as bytes

Natural numbers as bytes, the highest byte first.
-/

namespace TokenForge

/-- The low `size` bytes of a number. -/
def toBytes (size n : Nat) : Bytes :=
  (List.range size).reverse.map fun i => UInt8.ofNat (n / Nat.pow 256 i % 256)

def ofBytes (bs : Bytes) : Nat := bs.foldl (fun n b => n * 256 + b.toNat) 0

end TokenForge
