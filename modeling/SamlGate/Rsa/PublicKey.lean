import SamlGate.Text.Octets

/-!
RSA public keys and the operation they allow.
-/

namespace SamlGate.Rsa

structure PublicKey where
  modulus : Nat
  exponent : Nat
  deriving DecidableEq, Repr

def bitLength (value : Nat) : Nat :=
  if value = 0 then 0 else Nat.log2 value + 1

def PublicKey.bits (key : PublicKey) : Nat :=
  bitLength key.modulus

def PublicKey.size (key : PublicKey) : Nat :=
  (key.bits + 7) / 8

/-- A power of the base, reduced, by squaring along the binary digits of the exponent, of which there are
at most `width`. -/
def powModFrom (modulus : Nat) : (width base exponent : Nat) → Nat
  | 0, _, _ => 1 % modulus
  | width + 1, base, exponent =>
    let rest := powModFrom modulus width (base * base % modulus) (exponent / 2)
    if exponent % 2 = 1 then base * rest % modulus else rest

def powMod (modulus base exponent : Nat) : Nat :=
  powModFrom modulus (bitLength exponent) base exponent

/-- The number that a signer started from. -/
def PublicKey.recover (key : PublicKey) (signed : Nat) : Nat :=
  powMod key.modulus signed key.exponent

end SamlGate.Rsa
