import SamlGate.Certificate.VerificationKey
import SamlGate.Codec.Base64
import SamlGate.Rsa.SignatureMethod
import SamlGate.Signature.Transform
import SamlGate.Xml.Identifier

/-!
Verifying a signature over the element that holds it.

The single reference must select the very element that holds the signature, whichever way it names it.
The octets that its transforms make of the selection must have the stated digest, and the value of the
signature must verify over the canonical octets of the part that states the digest. The key is given by
the caller: what key material a signature carries is never used.
-/

namespace SamlGate.Signature

open Xml Canonical

/-- The octets of a text in base64; the subject is what messages call the text. -/
def decoded (subject text : String) : Except Error Octets :=
  match Base64.decode? text with
  | some octets => .ok octets
  | none => .error (.malformed (.base64 subject))

/-- What a signature claims to cover: its reference and what that selects. -/
structure Coverage where
  reference : Reference
  uri : String
  selection : Selection

/-- Follows the single reference of a signature at a site, which must lead to the element that holds
the signature. -/
def coverage (document : Document) (site : Site) (signedInfo : SignedInfo) :
    Except Error Coverage := do
  let identifiers ← document.identifierMap
  let reference ← signedInfo.singleReference
  match reference.uri with
  | none => .error (.signatureInvalid .referenceWithoutUri)
  | some uri =>
    let selection ← document.select identifiers uri
    match document.holder? site.position with
    | none => .error (.malformed .noEnvelopingElement)
    | some holder =>
      if selection.site.position = holder then .ok ⟨reference, uri, selection⟩
      else .error (.signatureInvalid (.otherElement uri))

def Coverage.octets (covered : Coverage) (document : Document) (site : Site) :
    Except Error Octets := do
  let pipeline ← covered.reference.pipeline site.position
  let data ← applyAll pipeline (.nodes document covered.selection.nodes)
  .ok data.toOctets

def Coverage.check (covered : Coverage) (document : Document) (site : Site) : Except Error Unit := do
  let octets ← covered.octets document site
  let algorithm ← DigestAlgorithm.ofUri covered.reference.digestMethod
  let expected ← decoded "DigestValue" covered.reference.digestValue
  if algorithm.digest octets = expected then .ok () else .error (.digestMismatch covered.uri)

def signedInfoOctets (document : Document) (site : Site) (signedInfo : SignedInfo) :
    Except Error Octets :=
  match site.childNamed? Namespaces.signature "SignedInfo" with
  | none => .error (.malformed (.missingSignaturePart "SignedInfo"))
  | some part =>
    match Method.ofUri? signedInfo.canonicalization.algorithm with
    | none => .error (.unsupported (.canonicalization signedInfo.canonicalization.algorithm))
    | some method =>
      let form : Form := ⟨method, signedInfo.canonicalization.listed⟩
      .ok (form.octets document (some (NodeSet.treeWithoutComments document part)))

def Embedded.checkValue (signature : Embedded) (key : VerificationKey) (covered : Octets) :
    Except Error Unit :=
  if signature.value = "" then .error (.notSigned .emptySignatureValue)
  else do
    let value ← decoded "SignatureValue" signature.value
    let method ← SignatureMethod.ofUri signature.signedInfo.signatureMethod
    if method.verifies key.key covered value then .ok ()
    else .error (.signatureInvalid (.signatureValue key.description))

def Embedded.verify (signature : Embedded) (key : VerificationKey) (document : Document)
    (site : Site) : Except Error Unit := do
  let covered ← coverage document site signature.signedInfo
  covered.check document site
  let octets ← signedInfoOctets document site signature.signedInfo
  signature.checkValue key octets

end SamlGate.Signature
