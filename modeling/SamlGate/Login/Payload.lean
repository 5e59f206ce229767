import SamlGate.Codec.Base64
import SamlGate.Codec.Deflate.Inflation
import SamlGate.Login.Submission

/-!
The document inside a request parameter.

A posted parameter is base64 of the document. A parameter in a query is base64 of the compressed document.
Either way the document must be UTF-8 and no longer than the limit on it. Of a compressed document one
octet more than admitted is asked for, so that what is too long shows without being inflated to its end.
That octet is counted in a word of 64 bits, so it cannot be counted where the limit is the largest word.
-/

namespace SamlGate

/-- The URI that says of a document that it is compressed, as it is where nothing is said. -/
def compressedUri : String :=
  "urn:oasis:names:tc:SAML:2.0:bindings:URL-Encoding:DEFLATE"

def parameterOctets (limits : Limits) (parameter : String) : Except Error Octets := do
  limits.checkEncoded parameter
  match Base64.decodeWrapped? parameter with
  | some octets => .ok octets
  | none => .error (.malformed (.base64 "SAMLRequest"))

def documentText (octets : Octets) : Except Error String :=
  match Utf8.read octets with
  | .ok text => .ok text
  | .error fault => .error (.malformed (.requestText fault))

/-! ### Compressed documents -/

/-- How many octets of a document are asked for. -/
def Limits.asked (limits : Limits) : Except Failure Nat :=
  if limits.inflated.toNat + 1 < UInt64.size then .ok (limits.inflated.toNat + 1) else .error .overflow

/-- The octets that came out are the document unless there is one too many. -/
def Limits.admitted (limits : Limits) (octets : Octets) : Except Error Octets :=
  if limits.inflated.toNat < octets.length then
    .error (.malformed (.inflatedTooLong limits.inflated.toNat))
  else .ok octets

def Limits.inflate (limits : Limits) (stream : Octets) : Except Failure Octets := do
  let asked ← limits.asked
  match Deflate.inflate asked stream with
  | some output => limits.admitted (output.toList.take asked)
  | none => .error (.rejected (.malformed .deflate))

/-! ### Parameters -/

def queryDocument (limits : Limits) (parameter encoding : String) : Except Failure String :=
  if encoding ≠ "" ∧ encoding ≠ compressedUri then .error (.rejected (.unsupported (.encoding encoding)))
  else do
    let stream ← parameterOctets limits parameter
    let octets ← limits.inflate stream
    documentText octets

def formDocument (limits : Limits) (parameter : String) : Except Error String := do
  let octets ← parameterOctets limits parameter
  if limits.inflated.toNat < octets.length then
    .error (.malformed (.decodedTooLong limits.inflated.toNat))
  else documentText octets

end SamlGate
