import SamlGate.Digest.Sha1
import SamlGate.Digest.Sha2
import SamlGate.Error

/-!
The digest algorithms that a signature may name.
-/

namespace SamlGate

inductive DigestAlgorithm where
  | sha1
  | sha224
  | sha256
  | sha384
  | sha512
  deriving DecidableEq, Repr

namespace DigestAlgorithm

def all : List DigestAlgorithm :=
  [.sha1, .sha224, .sha256, .sha384, .sha512]

def uri : DigestAlgorithm → String
  | sha1 => "http://www.w3.org/2000/09/xmldsig#sha1"
  | sha224 => "http://www.w3.org/2001/04/xmldsig-more#sha224"
  | sha256 => "http://www.w3.org/2001/04/xmlenc#sha256"
  | sha384 => "http://www.w3.org/2001/04/xmldsig-more#sha384"
  | sha512 => "http://www.w3.org/2001/04/xmlenc#sha512"

def ofUri (named : String) : Except Error DigestAlgorithm :=
  match all.find? (fun algorithm => algorithm.uri = named) with
  | some algorithm => .ok algorithm
  | none => .error (.unsupported (.digest named))

theorem ofUri_uri (algorithm : DigestAlgorithm) : ofUri algorithm.uri = .ok algorithm := by
  cases algorithm <;> simp [ofUri, all, uri]

def digest : DigestAlgorithm → Octets → Octets
  | sha1 => Digest.Sha1.digest
  | sha224 => Digest.Sha2.digest224
  | sha256 => Digest.Sha2.digest256
  | sha384 => Digest.Sha2.digest384
  | sha512 => Digest.Sha2.digest512

end DigestAlgorithm

end SamlGate
