import SamlGate.Canonical.Serialization
import SamlGate.Signature.Embedded
import SamlGate.Text.Utf8

/-!
Transforms of what a reference selects.

A reference selects nodes; a digest needs octets. Its transforms lead from the one to the other: the
signature itself can be taken out of the nodes, and canonicalization turns nodes into octets. Octets are
read as a document again if canonicalization is applied to them, and no signature can be taken out of
them. Nodes that are left at the end become octets by the default method.
-/

namespace SamlGate.Signature

open Xml Canonical

inductive Data where
  | nodes (document : Document) (set : NodeSet)
  | octets (content : Octets)

inductive Transform where
  | withoutSignature (position : Nat)
  | canonical (form : Form)
  deriving DecidableEq, Repr

def withoutSignatureUri : String :=
  "http://www.w3.org/2000/09/xmldsig#enveloped-signature"

def Transform.uri : Transform → String
  | .withoutSignature _ => withoutSignatureUri
  | .canonical form => form.method.uri

def Transform.apply : Transform → Data → Except Error Data
  | .withoutSignature position, .nodes document set =>
    match document.site? position with
    | some site => .ok (.nodes document (set.remove site))
    | none => .error (.malformed .signatureOutsideDocument)
  | .withoutSignature _, .octets _ => .error (.malformed .envelopedOverOctets)
  | .canonical form, .nodes document set => .ok (.octets (form.octets document (some set)))
  | .canonical form, .octets content =>
    match Utf8.read content with
    | .ok text => (form.octetsOfText text).map Data.octets
    | .error fault => .error (.malformed (.canonicalText fault))

def applyAll (transforms : List Transform) (data : Data) : Except Error Data :=
  transforms.foldlM (fun passed transform => transform.apply passed) data

/-- The octets that are digested when the data has passed all transforms. -/
def Data.toOctets : Data → Octets
  | .nodes document set => Form.octets ⟨Method.default, []⟩ document (some set)
  | .octets content => content

/-- The transform that a reference names, for a signature at the position. -/
def StatedMethod.transform (signature : Nat) (stated : StatedMethod) : Except Error Transform :=
  if stated.algorithm = withoutSignatureUri then .ok (.withoutSignature signature)
  else
    match Method.ofUri? stated.algorithm with
    | some method => .ok (.canonical ⟨method, stated.listed⟩)
    | none => .error (.unsupported (.transform stated.algorithm))

/-- The transforms of a reference. All of them must be known before any is applied. -/
def Reference.pipeline (reference : Reference) (signature : Nat) : Except Error (List Transform) :=
  reference.transforms.mapM (StatedMethod.transform signature)

end SamlGate.Signature
