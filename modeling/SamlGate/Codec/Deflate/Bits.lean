import SamlGate.Text.Octets

/-!
A stream of bits, least significant bit of each octet first.

Numbers are stored with their least significant bit first, so a number of `width` bits is read by
doubling what follows its first bit. Aligning drops the rest of a begun octet.
-/

namespace SamlGate.Deflate

/-- The unread bits: the `left` low bits of `current`, then those of the octets in `rest`. -/
structure Bits where
  current : Nat
  left : Nat
  rest : Octets

def Bits.empty : Bits :=
  ⟨0, 0, []⟩

def Bits.extended (bits : Bits) (octets : Octets) : Bits :=
  { bits with rest := bits.rest ++ octets }

def Bits.next? (bits : Bits) : Option (Nat × Bits) :=
  match bits.left, bits.rest with
  | left + 1, _ => some (bits.current % 2, ⟨bits.current / 2, left, bits.rest⟩)
  | 0, octet :: rest => some (octet.toNat % 2, ⟨octet.toNat / 2, 7, rest⟩)
  | 0, [] => none

def Bits.number? : (width : Nat) → Bits → Option (Nat × Bits)
  | 0, bits => some (0, bits)
  | width + 1, bits => do
    let (bit, behind) ← bits.next?
    let (value, remaining) ← Bits.number? width behind
    pure (bit + 2 * value, remaining)

def Bits.aligned (bits : Bits) : Bits :=
  ⟨0, 0, bits.rest⟩

def Bits.remaining (bits : Bits) : Nat :=
  bits.left + 8 * bits.rest.length

end SamlGate.Deflate
