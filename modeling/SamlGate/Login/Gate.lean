import SamlGate.Login.Demand
import SamlGate.Login.PostedSignature
import SamlGate.Login.QuerySignature

/-!
The gate: whether a login request is accepted.

A request is accepted if its parameters can be read, an answer has somewhere to go, its document says what
a login needs, and its signature verifies wherever verification is demanded. In a query the signature
covers the parameters and is verified before the document is looked at; in a form it is part of the
document, and the request is read from the very document that was verified.
-/

namespace SamlGate

structure AcceptedRequest where
  submission : Submission
  request : AuthnRequest
  endpoint : Endpoint
  /-- Whether a signature was demanded, and so verified. -/
  verified : Bool
  deriving DecidableEq, Repr

def acceptQuery (limits : Limits) (service : ServiceProvider) (identity : IdentityProvider)
    (submission : Submission) : Except Failure (AuthnRequest × Bool) := do
  let demanded :=
    queryDemandsVerification service identity submission.carrier.binding submission.signature
  if demanded then
    verifyQuery limits service submission.request submission.relayState submission.signature
      submission.signatureAlgorithm
  let text ← queryDocument limits submission.request submission.encoding
  let request ← AuthnRequest.read limits text
  .ok (request, demanded)

def acceptForm (limits : Limits) (service : ServiceProvider) (identity : IdentityProvider)
    (submission : Submission) : Except Error (AuthnRequest × Bool) := do
  let text ← formDocument limits submission.request
  let document ← AuthnRequest.readDocument limits text
  let posted ← postedSignature? document
  let demanded :=
    formDemandsVerification service identity submission.carrier.binding
      (posted.map PostedSignature.signature)
  if demanded then verifyDocument service document
  let request ← AuthnRequest.ofDocument document
  .ok (request, demanded)

def accept (limits : Limits) (carrier : Carrier) (raw : String) (service : ServiceProvider)
    (identity : IdentityProvider) : Except Failure AcceptedRequest := do
  let submission ← Submission.read limits carrier raw
  match chooseEndpoint? service.endpoints carrier.binding with
  | none => .error (.rejected (.malformed (.providerWithoutEndpoint service.entityId)))
  | some endpoint =>
    let (request, verified) ←
      match carrier with
      | .query => acceptQuery limits service identity submission
      | .form => acceptForm limits service identity submission
    .ok { submission, request, endpoint, verified }

end SamlGate
