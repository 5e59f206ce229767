/-!
Limits on what a request may cost.

Sizes are counted in octets, as words of 64 bits; the number of nodes is a word of 32 bits.
-/

namespace SamlGate

structure Limits where
  /-- The longest value of a request parameter. -/
  encoded : UInt64 := 524288
  /-- The longest document that a request parameter may spell. -/
  inflated : UInt64 := 262144
  /-- The most nodes that the document of a request may have. -/
  nodes : UInt32 := 100000
  deriving DecidableEq, Repr

end SamlGate
