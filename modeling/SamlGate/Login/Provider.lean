import SamlGate.Certificate.VerificationKey
import SamlGate.Login.Binding

/-!
What is registered of the two providers.

A service provider asks for logins. It registers the endpoints where answers go and the certificates it
signs with. An identity provider answers. Each may declare that requests are to be signed.
-/

namespace SamlGate

structure Endpoint where
  binding : Binding
  location : String
  index : Option UInt16 := none
  isDefault : Option Bool := none
  deriving DecidableEq, Repr

/-- Certificates registered for one use; without a use they serve for any. -/
structure KeyDescriptor where
  usage : Option String
  certificates : List String
  deriving DecidableEq, Repr

structure ServiceProvider where
  entityId : String := ""
  /-- What the provider says about signing its requests, as written. -/
  requestsSigned : String := ""
  endpoints : List Endpoint := []
  keyDescriptors : List KeyDescriptor := []
  deriving DecidableEq, Repr

structure IdentityProvider where
  entityId : String := ""
  wantsRequestsSigned : String := ""
  deriving DecidableEq, Repr

def ServiceProvider.signsRequests (provider : ServiceProvider) : Bool :=
  provider.requestsSigned = "true"

def IdentityProvider.wantsSignedRequests (provider : IdentityProvider) : Bool :=
  provider.wantsRequestsSigned = "true"

/-! ### Endpoints -/

/-- The endpoint an answer is sent to: the first for the binding of the request, else the first that is
declared the default, else the first. -/
def chooseEndpoint? (endpoints : List Endpoint) (binding : Binding) : Option Endpoint :=
  (endpoints.find? (fun endpoint => endpoint.binding = binding)).or
    ((endpoints.find? (fun endpoint => endpoint.isDefault = some true)).or endpoints.head?)

theorem chooseEndpoint?_eq_none_iff {endpoints : List Endpoint} {binding : Binding} :
    chooseEndpoint? endpoints binding = none ↔ endpoints = [] := by
  cases endpoints with
  | nil => simp [chooseEndpoint?]
  | cons first rest => simp [chooseEndpoint?]

/-! ### Keys -/

/-- The descriptor of the signing key: the first for signing, else the first without a use. -/
def ServiceProvider.signingDescriptor? (provider : ServiceProvider) : Option KeyDescriptor :=
  (provider.keyDescriptors.find? (fun descriptor => descriptor.usage = some "signing")).or
    (provider.keyDescriptors.find? (fun descriptor => descriptor.usage = none))

def ServiceProvider.signingCertificate (provider : ServiceProvider) : Except Error String :=
  match provider.signingDescriptor?.bind (fun descriptor => descriptor.certificates.head?) with
  | some certificate => .ok certificate
  | none => .error (.certificateMissing (.noneRegistered provider.entityId))

def ServiceProvider.signingKey (provider : ServiceProvider) : Except Error VerificationKey := do
  let certificate ← provider.signingCertificate
  match VerificationKey.ofText certificate with
  | .ok key => .ok key
  | .error error => .error (.certificateMissing (.unusable error.kind error.detail))

end SamlGate
