import SamlGate.Error
import SamlGate.Namespaces
import SamlGate.Text.Blank
import SamlGate.Xml.Position

/-!
Signatures carried by the document that they sign.

A signature states how it was made: which methods were used, and for each reference what was digested and
how. Reading takes the first element of each name and keeps the values as they are written; whether a
method is known and a value decodes is settled when the signature is verified. The key material that a
signature carries is kept apart, and a signature without a place for it is told from one with an empty
place.
-/

namespace SamlGate.Signature

open Xml

/-- An algorithm with the prefixes it is to treat inclusively. -/
structure StatedMethod where
  algorithm : String
  listed : List String
  deriving DecidableEq, Repr

structure Reference where
  /-- None where the attribute is missing, which is not the empty reference. -/
  uri : Option String
  transforms : List StatedMethod
  digestMethod : String
  digestValue : String
  deriving DecidableEq, Repr

/-- The part of a signature that its value covers. -/
structure SignedInfo where
  canonicalization : StatedMethod
  signatureMethod : String
  references : List Reference
  deriving DecidableEq, Repr

structure Embedded where
  signedInfo : SignedInfo
  value : String
  /-- The certificates carried along, none where there is no key information. -/
  certificates : Option (List String)
  deriving DecidableEq, Repr

/-! ### Reading -/

def requiredPart (element : Element) (name : String) : Except Error Element :=
  match element.childNamed? Namespaces.signature name with
  | some part => .ok part
  | none => .error (.malformed (.missingSignaturePart name))

def requiredAlgorithm (part : Element) : Except Error String :=
  match part.tag.attribute? "Algorithm" with
  | some algorithm => .ok algorithm
  | none => .error (.malformed (.missingAlgorithm part.tag.name.localName))

def listedPrefixes (method : Element) : List String :=
  match (method.childNamed? Namespaces.exclusive "InclusiveNamespaces").bind
      (fun list => list.tag.attribute? "PrefixList") with
  | some list => Text.words list
  | none => []

def StatedMethod.read (part : Element) : Except Error StatedMethod := do
  let algorithm ← requiredAlgorithm part
  .ok ⟨algorithm, listedPrefixes part⟩

def readTransforms (reference : Element) : Except Error (List StatedMethod) :=
  match reference.childNamed? Namespaces.signature "Transforms" with
  | some list => (list.childrenNamed Namespaces.signature "Transform").mapM StatedMethod.read
  | none => .ok []

def Reference.read (element : Element) : Except Error Reference := do
  let transforms ← readTransforms element
  let digestMethod ← requiredPart element "DigestMethod"
  let digestValue ← requiredPart element "DigestValue"
  let algorithm ← requiredAlgorithm digestMethod
  .ok
    { uri := element.tag.attribute? "URI"
      transforms := transforms
      digestMethod := algorithm
      digestValue := Text.compact digestValue.text }

def SignedInfo.read (element : Element) : Except Error SignedInfo := do
  let canonicalization ← requiredPart element "CanonicalizationMethod"
  let signatureMethod ← requiredPart element "SignatureMethod"
  let references ← (element.childrenNamed Namespaces.signature "Reference").mapM Reference.read
  let stated ← StatedMethod.read canonicalization
  let algorithm ← requiredAlgorithm signatureMethod
  .ok ⟨stated, algorithm, references⟩

def readCertificates (keyInfo : Element) : List String :=
  (keyInfo.childrenNamed Namespaces.signature "X509Data").flatMap fun holder =>
    (holder.childrenNamed Namespaces.signature "X509Certificate").map
      (fun certificate => Text.compact certificate.text)

def Embedded.ofElement (element : Element) : Except Error Embedded := do
  let signedInfo ← requiredPart element "SignedInfo"
  let value ← requiredPart element "SignatureValue"
  let stated ← SignedInfo.read signedInfo
  .ok
    { signedInfo := stated
      value := Text.compact value.text
      certificates :=
        (element.childNamed? Namespaces.signature "KeyInfo").map readCertificates }

def Embedded.read (node : Node) : Except Error Embedded :=
  match node with
  | .element element =>
    if element.tag.isNamed Namespaces.signature "Signature" then Embedded.ofElement element
    else .error (.malformed (.noSignatureElement node.localName))
  | _ => .error (.malformed (.noSignatureElement node.localName))

def SignedInfo.singleReference (signedInfo : SignedInfo) : Except Error Reference :=
  match signedInfo.references with
  | [] => .error (.malformed .noReference)
  | [reference] => .ok reference
  | _ => .error (.signatureInvalid (.referenceCount signedInfo.references.length))

end SamlGate.Signature
