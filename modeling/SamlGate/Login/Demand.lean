import SamlGate.Login.Provider
import SamlGate.Signature.Embedded

/-!
When a signature must be verified.

Three signs demand it, each by itself: the request carries a signature, the service provider declares that
it signs, the identity provider declares that it wants signatures. Each rule applies to one binding only.
-/

namespace SamlGate

def declaredSigned (service : ServiceProvider) (identity : IdentityProvider) : Bool :=
  service.signsRequests || identity.wantsSignedRequests

/-- A request by redirect carries its signature in a parameter. -/
def queryDemandsVerification (service : ServiceProvider) (identity : IdentityProvider)
    (binding : Binding) (signature : String) : Bool :=
  binding = .redirect && (signature ≠ "" || declaredSigned service identity)

/-- A posted request carries its signature in the document; one with an empty value is none. -/
def formDemandsVerification (service : ServiceProvider) (identity : IdentityProvider)
    (binding : Binding) (signature : Option Signature.Embedded) : Bool :=
  binding = .post
    && (signature.any (fun carried => carried.value ≠ "") || declaredSigned service identity)

end SamlGate
