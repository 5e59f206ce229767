import SamlGate.Login.Provider
import SamlGate.Namespaces
import SamlGate.Text.Blank
import SamlGate.Text.Number
import SamlGate.Xml.Position

/-!
Metadata documents.

A provider is described by an element for its role, which may stand alone or in the description of an
entity that gives the provider its name.
-/

namespace SamlGate

open Xml

def readMetadata (text : String) : Except Error Document :=
  match Document.read? defaultNodeLimit text with
  | some document => .ok document
  | none => .error (.malformed .metadataDocument)

def roleDescriptor (root : Element) (role : String) : Except Error (String × Element) :=
  if root.tag.isNamed Namespaces.metadata role then .ok ("", root)
  else if !root.tag.isNamed Namespaces.metadata "EntityDescriptor" then
    .error (.malformed (.noDescriptor role root.tag.name.localName))
  else
    match root.childNamed? Namespaces.metadata role with
    | some descriptor => .ok ((root.tag.attribute? "entityID").getD "", descriptor)
    | none => .error (.malformed (.missingRole role))

def readTruthValue (text : String) : Except Error Bool :=
  let trimmed := Text.trim text
  if trimmed = "true" ∨ trimmed = "1" then .ok true
  else if trimmed = "false" ∨ trimmed = "0" then .ok false
  else .error (.malformed (.truthValue trimmed))

def readIndex (text : String) : Except Error UInt16 :=
  match Text.natural? (Text.trim text) with
  | some value =>
    if value < UInt16.size then .ok (UInt16.ofNat value) else .error (.malformed (.endpointIndex text))
  | none => .error (.malformed (.endpointIndex text))

def optional {α : Type} (read : String → Except Error α) : Option String → Except Error (Option α)
  | none => .ok none
  | some text => (read text).map some

def endpointAttribute (element : Element) (name : String) : Except Error String :=
  match element.tag.attribute? name with
  | some value => .ok value
  | none => .error (.malformed (.endpointWithout name))

def Endpoint.read (element : Element) : Except Error Endpoint := do
  let binding ← endpointAttribute element "Binding"
  let location ← endpointAttribute element "Location"
  let index ← optional readIndex (element.tag.attribute? "index")
  let isDefault ← optional readTruthValue (element.tag.attribute? "isDefault")
  .ok { binding := Binding.ofUri binding, location := location, index := index, isDefault := isDefault }

/-- The certificates of a descriptor stand at any depth; those without content are left out. -/
def KeyDescriptor.read (element : Element) : KeyDescriptor where
  usage := element.tag.attribute? "use"
  certificates :=
    ((element.descendantsNamed Namespaces.signature "X509Certificate").map
      (fun certificate => Text.compact certificate.text)).filter (fun text => text ≠ "")

def ServiceProvider.ofDocument (document : Document) : Except Error ServiceProvider := do
  let (entityId, descriptor) ← roleDescriptor document.root "SPSSODescriptor"
  let endpoints ←
    (descriptor.childrenNamed Namespaces.metadata "AssertionConsumerService").mapM Endpoint.read
  .ok
    { entityId := entityId
      requestsSigned := (descriptor.tag.attribute? "AuthnRequestsSigned").getD ""
      endpoints := endpoints
      keyDescriptors :=
        (descriptor.childrenNamed Namespaces.metadata "KeyDescriptor").map KeyDescriptor.read }

def ServiceProvider.read (text : String) : Except Error ServiceProvider := do
  let document ← readMetadata text
  ServiceProvider.ofDocument document

def IdentityProvider.ofDocument (document : Document) : Except Error IdentityProvider := do
  let (entityId, descriptor) ← roleDescriptor document.root "IDPSSODescriptor"
  .ok
    { entityId := entityId
      wantsRequestsSigned := (descriptor.tag.attribute? "WantAuthnRequestsSigned").getD "" }

def IdentityProvider.read (text : String) : Except Error IdentityProvider := do
  let document ← readMetadata text
  IdentityProvider.ofDocument document

end SamlGate
