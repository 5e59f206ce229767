import SamlGate.Login.AuthnRequest
import SamlGate.Login.Payload
import SamlGate.Login.Pinning
import SamlGate.Signature.Verification

/-!
Signatures of posted requests.

The signature is the first of its name directly below the root of the request. A certificate that it
carries is compared with the registered one, and the signature is verified under the registered key.
-/

namespace SamlGate

open Xml

structure PostedSignature where
  site : Site
  signature : Signature.Embedded
  deriving DecidableEq, Repr

def postedSignature? (document : Document) : Except Error (Option PostedSignature) :=
  match document.rootSite.childNamed? Namespaces.signature "Signature" with
  | none => .ok none
  | some site => (Signature.Embedded.read site.node).map (fun signature => some ⟨site, signature⟩)

def PostedSignature.verify (posted : PostedSignature) (provider : ServiceProvider)
    (document : Document) : Except Error Unit := do
  if pinningNecessary provider (some posted.signature) then checkPinned provider posted.signature
  let key ← provider.signingKey
  posted.signature.verify key document posted.site

def verifyDocument (provider : ServiceProvider) (document : Document) : Except Error Unit := do
  match ← postedSignature? document with
  | none => .error (.notSigned .noSignatureElement)
  | some posted => posted.verify provider document

def verifyForm (limits : Limits) (provider : ServiceProvider) (parameter : String) :
    Except Error Unit := do
  let text ← formDocument limits parameter
  let document ← AuthnRequest.readDocument limits text
  verifyDocument provider document

end SamlGate
