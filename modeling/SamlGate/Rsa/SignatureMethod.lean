import SamlGate.Digest.Algorithm
import SamlGate.Rsa.PublicKey

/-!
RSA signatures with PKCS #1 version 1.5 padding.

A signature is as many octets as the modulus. Its number, raised to the exponent, must spell one block:
two fixed octets, a run of filling octets, a zero octet, and the digest of the message under a header that
names the digest algorithm. The block is built and compared as a whole, so nothing in it goes unread.
Whatever is wrong with a signature, the verdict is that it does not verify.
-/

namespace SamlGate

/-- A signature algorithm: RSA over the given digest. -/
structure SignatureMethod where
  digest : DigestAlgorithm
  deriving DecidableEq, Repr

namespace SignatureMethod

def uri (method : SignatureMethod) : String :=
  match method.digest with
  | .sha1 => "http://www.w3.org/2000/09/xmldsig#rsa-sha1"
  | .sha224 => "http://www.w3.org/2001/04/xmldsig-more#rsa-sha224"
  | .sha256 => "http://www.w3.org/2001/04/xmldsig-more#rsa-sha256"
  | .sha384 => "http://www.w3.org/2001/04/xmldsig-more#rsa-sha384"
  | .sha512 => "http://www.w3.org/2001/04/xmldsig-more#rsa-sha512"

def all : List SignatureMethod :=
  DigestAlgorithm.all.map SignatureMethod.mk

def ofUri (named : String) : Except Error SignatureMethod :=
  match all.find? (fun method => method.uri = named) with
  | some method => .ok method
  | none => .error (.unsupported (.signature named))

theorem ofUri_uri (method : SignatureMethod) : ofUri method.uri = .ok method := by
  obtain ⟨digest⟩ := method
  cases digest <;> simp [ofUri, all, DigestAlgorithm.all, uri]

def objectIdentifier : DigestAlgorithm → Octets
  | .sha1 => [0x2B, 0x0E, 0x03, 0x02, 0x1A]
  | .sha224 => [0x60, 0x86, 0x48, 0x01, 0x65, 0x03, 0x04, 0x02, 0x04]
  | .sha256 => [0x60, 0x86, 0x48, 0x01, 0x65, 0x03, 0x04, 0x02, 0x01]
  | .sha384 => [0x60, 0x86, 0x48, 0x01, 0x65, 0x03, 0x04, 0x02, 0x02]
  | .sha512 => [0x60, 0x86, 0x48, 0x01, 0x65, 0x03, 0x04, 0x02, 0x03]

def shortElement (tag : UInt8) (content : Octets) : Octets :=
  tag :: UInt8.ofNat content.length :: content

/-- The digest of the message under the header that names the algorithm. -/
def digestInfo (method : SignatureMethod) (message : Octets) : Octets :=
  let identifier := shortElement 0x06 (objectIdentifier method.digest)
  let algorithm := shortElement 0x30 (identifier ++ shortElement 0x05 [])
  shortElement 0x30 (algorithm ++ shortElement 0x04 (method.digest.digest message))

/-- The block that a signature of the message spells, if it fits into `size` octets. -/
def block? (method : SignatureMethod) (size : Nat) (message : Octets) : Option Octets :=
  let info := method.digestInfo message
  if info.length + 11 ≤ size then
    some (0x00 :: 0x01 :: (List.replicate (size - info.length - 3) 0xFF ++ 0x00 :: info))
  else none

def verifies (method : SignatureMethod) (key : Rsa.PublicKey) (message signature : Octets) : Bool :=
  match method.block? key.size message with
  | none => false
  | some block =>
    let signed := Octets.toNat signature
    signature.length = key.size && signed < key.modulus
      && Octets.ofNat (key.recover signed) key.size = block

end SignatureMethod

end SamlGate
