import SamlGate.Codec.Base64
import SamlGate.Login.Provider
import SamlGate.Login.Submission
import SamlGate.Rsa.SignatureMethod

/-!
Signatures of requests in a query.

The signature covers a query that is put together anew from the values of three parameters, in fixed order
and in the written form that form encoding gives them. How the request was spelled on its way does not
matter, and no other parameter is covered. The key is always the registered one: a query carries none.
-/

namespace SamlGate

/-- The query that a signature covers. Without a relay state there is no parameter for one. -/
def signedQuery (request relayState algorithm : String) : String :=
  "SAMLRequest=" ++ Percent.encode request
    ++ (if relayState = "" then "" else "&RelayState=" ++ Percent.encode relayState)
    ++ "&SigAlg=" ++ Percent.encode algorithm

def querySignatureMethods : List SignatureMethod :=
  [⟨.sha1⟩, ⟨.sha256⟩]

def querySignatureMethod (algorithm : String) : Except Error SignatureMethod :=
  match querySignatureMethods.find? (fun method => method.uri = algorithm) with
  | some method => .ok method
  | none =>
    if algorithm = "" then .error (.unsupported .missingRedirectSignature)
    else .error (.unsupported (.redirectSignature algorithm))

def verifyQuery (limits : Limits) (provider : ServiceProvider)
    (request relayState signature algorithm : String) : Except Error Unit :=
  if request = "" then .error (.malformed .emptyRequest)
  else do
    limits.checkEncoded request
    if signature = "" then .error (.notSigned .missingSignatureParameter)
    else do
      let method ← querySignatureMethod algorithm
      match Base64.decode? signature with
      | none => .error (.malformed (.base64 "Signature"))
      | some value =>
        let key ← provider.signingKey
        let covered := Octets.ofText (signedQuery request relayState algorithm)
        if method.verifies key.key covered value then .ok ()
        else .error (.signatureInvalid (.redirect key.description))

end SamlGate
