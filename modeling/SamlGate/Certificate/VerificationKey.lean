import SamlGate.Certificate.Contents
import SamlGate.Certificate.Pem
import SamlGate.Error
import SamlGate.Text.Blank

/-!
Keys taken from certificates.

A certificate is given as octets, as armoured text, or as the bare base64 of a metadata document. The
key that is used to verify a signature is the one in the certificate, and it keeps the subject's name for
the messages that report on it.
-/

namespace SamlGate

structure VerificationKey where
  key : Rsa.PublicKey
  subject : String
  certificate : Octets
  deriving DecidableEq, Repr

namespace VerificationKey

def description (key : VerificationKey) : String :=
  "RSA-" ++ toString key.key.bits ++ " public key (" ++ key.subject ++ ")"

def ofOctets (octets : Octets) : Except Error VerificationKey :=
  match Certificate.Contents.read? octets with
  | none => .error (.malformed .certificate)
  | some contents =>
    match contents.key? with
    | none => .error (.unsupported .certificateKey)
    | some key => .ok ⟨key, Certificate.Name.text contents.subject, octets⟩

def ofArmoured (text : String) : Except Error VerificationKey :=
  match Pem.Block.read? (Text.trim text) with
  | none => .error (.malformed .pem)
  | some block =>
    if block.label = "CERTIFICATE" then ofOctets block.octets
    else .error (.malformed (.pemLabel block.label))

def ofArmouredOctets (octets : Octets) : Except Error VerificationKey :=
  match Utf8.read octets with
  | .ok text => ofArmoured text
  | .error fault => .error (.malformed (.pemText fault))

def ofText (text : String) : Except Error VerificationKey :=
  let trimmed := Text.trim text
  if "-----BEGIN".toList.isPrefixOf trimmed.toList then ofArmoured trimmed
  else
    match Base64.decodeWrapped? trimmed with
    | some octets => ofOctets octets
    | none => .error (.malformed (.base64 "certificate"))

end VerificationKey

end SamlGate
