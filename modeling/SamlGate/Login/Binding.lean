/-!
Bindings: the ways a message travels between providers, each known by its URI.
-/

namespace SamlGate

inductive Binding where
  | redirect
  | post
  | artifact
  | soap
  | other (uri : String)
  deriving DecidableEq, Repr

namespace Binding

def uri : Binding → String
  | redirect => "urn:oasis:names:tc:SAML:2.0:bindings:HTTP-Redirect"
  | post => "urn:oasis:names:tc:SAML:2.0:bindings:HTTP-POST"
  | artifact => "urn:oasis:names:tc:SAML:2.0:bindings:HTTP-Artifact"
  | soap => "urn:oasis:names:tc:SAML:2.0:bindings:SOAP"
  | other uri => uri

def named : List Binding :=
  [redirect, post, artifact, soap]

def ofUri (uri : String) : Binding :=
  (named.find? (fun binding => binding.uri = uri)).getD (.other uri)

theorem uri_ofUri (uri : String) : (ofUri uri).uri = uri := by
  unfold ofUri
  cases found : named.find? (fun binding => binding.uri = uri) with
  | none => rfl
  | some binding => simpa using List.find?_some found

end Binding

end SamlGate
