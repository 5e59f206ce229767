import SamlGate.Text.Utf8
import SamlGate.Text.Quoted

/-!
Why a request is turned away.

An `Error` names the cause; `Error.kind` is its class and `Error.message` its wording, which is the
wording of the class followed by the detail of the cause. Every error is final: no caller retries.

The values quoted in a message are the ones the check looked at, so a message never shows more of a
request than the rule it broke.

A run that cannot go on because a sum does not fit its word is no error of the request. It stops there,
and reports nothing.
-/

namespace SamlGate

/-- The classes of failure, each with its own way to answer the sender. -/
inductive ErrorKind where
  | malformedInput
  | unsupportedAlgorithm
  | certificateMissing
  | certificateMismatch
  | notSigned
  | signatureInvalid
  | digestMismatch
  | inputOutput
  deriving DecidableEq, Repr

def ErrorKind.label : ErrorKind → String
  | .malformedInput => "malformed input"
  | .unsupportedAlgorithm => "unsupported algorithm"
  | .certificateMissing => "certificate missing"
  | .certificateMismatch => "certificate mismatch"
  | .notSigned => "request is not signed"
  | .signatureInvalid => "signature verification failed"
  | .digestMismatch => "digest mismatch for reference"
  | .inputOutput => "I/O error"

def ErrorKind.report (kind : ErrorKind) (detail : String) : String :=
  kind.label ++ ": " ++ detail

inductive Malformed where
  | document
  | metadataDocument
  | canonicalText (fault : Utf8.Fault)
  | duplicateIdentifier (value : String)
  | unknownIdentifier (value : String)
  | externalReference (uri : String)
  | signatureOutsideDocument
  | envelopedOverOctets
  | base64 (subject : String)
  | pemText (fault : Utf8.Fault)
  | pem
  | pemLabel (label : String)
  | certificate
  | noSignatureElement (found : String)
  | missingSignaturePart (name : String)
  | missingAlgorithm (name : String)
  | noReference
  | noEnvelopingElement
  | percentEncoding (component : String)
  | parameterText (fault : Utf8.Fault)
  | missingRequest
  | requestTooLong (size limit : Nat)
  | emptyRequest
  | noDescriptor (role found : String)
  | missingRole (role : String)
  | endpointWithout (name : String)
  | endpointIndex (value : String)
  | truthValue (value : String)
  | deflate
  | inflatedTooLong (limit : Nat)
  | decodedTooLong (limit : Nat)
  | requestText (fault : Utf8.Fault)
  | noRequestElement (found : String)
  | requestWithout (name : String)
  | requestVersion (version : String)
  | providerWithoutEndpoint (provider : String)
  | metadataWithoutEndpoint
  deriving DecidableEq, Repr

def Malformed.detail : Malformed → String
  | .document => "XML parse error"
  | .metadataDocument => "metadata XML parse error"
  | .canonicalText fault => "invalid UTF-8: " ++ fault.message
  | .duplicateIdentifier value => "duplicate ID attribute value: " ++ value
  | .unknownIdentifier value => "ID not found: " ++ value
  | .externalReference uri => "external reference URI not supported: " ++ uri
  | .signatureOutsideDocument => "enveloped signature node not in document"
  | .envelopedOverOctets => "enveloped-signature transform requires XML input"
  | .base64 subject => subject ++ " is not valid base64"
  | .pemText fault => "invalid PEM encoding: " ++ fault.message
  | .pem => "failed to decode certificate PEM"
  | .pemLabel label => "expected CERTIFICATE PEM label, got: " ++ label
  | .certificate => "failed to parse X.509 certificate"
  | .noSignatureElement found => "expected ds:Signature, found " ++ found
  | .missingSignaturePart name => "missing ds:" ++ name
  | .missingAlgorithm name => "missing Algorithm on ds:" ++ name
  | .noReference => "SignedInfo has no Reference"
  | .noEnvelopingElement => "Signature has no parent element"
  | .percentEncoding component => "invalid percent-encoding in " ++ Text.quoted component
  | .parameterText fault => "parameter is not UTF-8: " ++ fault.message
  | .missingRequest => "missing SAMLRequest parameter"
  | .requestTooLong size limit =>
    "SAMLRequest exceeds maximum size (" ++ toString size ++ " > " ++ toString limit ++ " bytes)"
  | .emptyRequest => "empty SAMLRequest"
  | .noDescriptor role found =>
    "expected md:EntityDescriptor or md:" ++ role ++ ", found " ++ found
  | .missingRole role => "EntityDescriptor has no md:" ++ role
  | .endpointWithout name => "AssertionConsumerService without " ++ name
  | .endpointIndex value => "invalid endpoint index: " ++ Text.quoted value
  | .truthValue value => "invalid xs:boolean: " ++ Text.quoted value
  | .deflate => "DEFLATE decode failed"
  | .inflatedTooLong limit => "inflated AuthnRequest exceeds " ++ toString limit ++ " bytes"
  | .decodedTooLong limit => "decoded AuthnRequest exceeds " ++ toString limit ++ " bytes"
  | .requestText fault => "AuthnRequest is not UTF-8: " ++ fault.message
  | .noRequestElement found => "expected samlp:AuthnRequest, found " ++ found
  | .requestWithout name => "AuthnRequest without " ++ name
  | .requestVersion version => "unsupported SAML version: " ++ version
  | .providerWithoutEndpoint provider =>
    "service provider " ++ Text.quoted provider ++ " has no AssertionConsumerService"
  | .metadataWithoutEndpoint => "metadata declares no AssertionConsumerService"

inductive Unsupported where
  | digest (uri : String)
  | signature (uri : String)
  | transform (uri : String)
  | canonicalization (uri : String)
  | certificateKey
  | missingRedirectSignature
  | redirectSignature (uri : String)
  | encoding (uri : String)
  deriving DecidableEq, Repr

def Unsupported.detail : Unsupported → String
  | .digest uri => "digest algorithm: " ++ uri
  | .signature uri => "signature algorithm: " ++ uri
  | .transform uri => "transform: " ++ uri
  | .canonicalization uri => "C14N: " ++ uri
  | .certificateKey => "certificate does not carry an RSA key"
  | .missingRedirectSignature => "missing SigAlg parameter"
  | .redirectSignature uri => "SigAlg: " ++ uri
  | .encoding uri => "SAMLEncoding: " ++ uri

/-- A certificate that is needed and absent, or present and of no use. -/
inductive MissingCertificate where
  | noneRegistered (provider : String)
  | unusable (kind : ErrorKind) (detail : String)
  | noKeyDescriptor
  | noneEmbedded
  | emptyKeyDescriptor
  deriving DecidableEq, Repr

def MissingCertificate.detail : MissingCertificate → String
  | .noneRegistered provider => "no signing certificate registered for " ++ Text.quoted provider
  | .unusable kind detail => "registered signing certificate is unusable: " ++ kind.report detail
  | .noKeyDescriptor => "service provider has no KeyDescriptor"
  | .noneEmbedded => "signature KeyInfo has no X509Certificate"
  | .emptyKeyDescriptor => "KeyDescriptor has no X509Certificate"

inductive Unsigned where
  | emptySignatureValue
  | missingSignatureParameter
  | noSignatureElement
  deriving DecidableEq, Repr

def Unsigned.detail : Unsigned → String
  | .emptySignatureValue => "empty SignatureValue"
  | .missingSignatureParameter => "missing Signature parameter"
  | .noSignatureElement => "AuthnRequest has no ds:Signature"

inductive BadSignature where
  | referenceCount (count : Nat)
  | referenceWithoutUri
  | otherElement (uri : String)
  | signatureValue (key : String)
  | redirect (key : String)
  deriving DecidableEq, Repr

def BadSignature.detail : BadSignature → String
  | .referenceCount count => "expected one Reference, found " ++ toString count
  | .referenceWithoutUri => "Reference has no URI"
  | .otherElement uri => "Reference " ++ Text.quoted uri ++ " does not select the signed element"
  | .signatureValue key => "SignatureValue does not verify under " ++ key
  | .redirect key => "redirect signature does not verify under " ++ key

inductive FileFault where
  | absent
  | forbidden
  | notDirectory
  | isDirectory
  | nameTooLong
  deriving DecidableEq, Repr

def FileFault.number : FileFault → Nat
  | .absent => 2
  | .forbidden => 13
  | .notDirectory => 20
  | .isDirectory => 21
  | .nameTooLong => 36

def FileFault.wording : FileFault → String
  | .absent => "No such file or directory"
  | .forbidden => "Permission denied"
  | .notDirectory => "Not a directory"
  | .isDirectory => "Is a directory"
  | .nameTooLong => "File name too long"

inductive UnreadableFile where
  | faulty (path : String) (fault : FileFault)
  | notText (path : String)
  deriving DecidableEq, Repr

def UnreadableFile.detail : UnreadableFile → String
  | .faulty path fault =>
    path ++ ": " ++ fault.wording ++ " (os error " ++ toString fault.number ++ ")"
  | .notText path => path ++ ": stream did not contain valid UTF-8"

inductive Error where
  | malformed (cause : Malformed)
  | unsupported (cause : Unsupported)
  | certificateMissing (cause : MissingCertificate)
  | certificateMismatch
  | notSigned (cause : Unsigned)
  | signatureInvalid (cause : BadSignature)
  | digestMismatch (uri : String)
  | file (cause : UnreadableFile)
  deriving DecidableEq, Repr

def Error.kind : Error → ErrorKind
  | .malformed _ => .malformedInput
  | .unsupported _ => .unsupportedAlgorithm
  | .certificateMissing _ => .certificateMissing
  | .certificateMismatch => .certificateMismatch
  | .notSigned _ => .notSigned
  | .signatureInvalid _ => .signatureInvalid
  | .digestMismatch _ => .digestMismatch
  | .file _ => .inputOutput

def Error.detail : Error → String
  | .malformed cause => cause.detail
  | .unsupported cause => cause.detail
  | .certificateMissing cause => cause.detail
  | .certificateMismatch => "embedded certificate is not the registered one"
  | .notSigned cause => cause.detail
  | .signatureInvalid cause => cause.detail
  | .digestMismatch uri => uri
  | .file cause => cause.detail

def Error.message (error : Error) : String :=
  error.kind.report error.detail

/-- How a run ends that does not succeed. -/
inductive Failure where
  | rejected (error : Error)
  | overflow
  deriving DecidableEq, Repr

instance : MonadLift (Except Error) (Except Failure) where
  monadLift outcome := outcome.mapError .rejected

end SamlGate
