import SamlGate.Text.Octets

/-!
Messages cut into blocks of words.

The digests here read a message in blocks of sixteen words. The message is first extended by one bit,
by zero bits, and by its length in bits as a number of two words, so that it fills whole blocks and no
two messages fill the same ones.
-/

namespace SamlGate.Digest

def octetsPerWord (width : Nat) : Nat :=
  width / 8

def groups {α : Type} (size : Nat) : (count : Nat) → List α → List (List α)
  | 0, _ => []
  | count + 1, items => items.take size :: groups size count (items.drop size)

def zeroOctets (width size : Nat) : Nat :=
  let block := 16 * octetsPerWord width
  (block - (size + 1 + 2 * octetsPerWord width) % block) % block

def padded (width : Nat) (message : Octets) : Octets :=
  message ++ 0x80 :: (List.replicate (zeroOctets width message.length) 0
    ++ Octets.ofNat (8 * message.length) (2 * octetsPerWord width))

def blocks (width : Nat) (message : Octets) : List (List (BitVec width)) :=
  let extended := padded width message
  let wordSize := octetsPerWord width
  (groups (16 * wordSize) (extended.length / (16 * wordSize)) extended).map fun block =>
    (groups wordSize 16 block).map (fun octets => BitVec.ofNat width (Octets.toNat octets))

def octetsOfWords {width : Nat} (words : List (BitVec width)) : Octets :=
  words.flatMap (fun word => Octets.ofNat word.toNat (octetsPerWord width))

end SamlGate.Digest
