import SamlGate.Login.Binding
import SamlGate.Login.Limits
import SamlGate.Error
import SamlGate.Namespaces
import SamlGate.Text.Blank
import SamlGate.Xml.Position

/-!
Login requests: what the document of a request says.

Only what a login acts on is read. The version is looked at first, then the attributes that must be there
in the order of their fields. A flag is set by the two spellings of truth and by nothing else.
-/

namespace SamlGate

open Xml

structure AuthnRequest where
  id : String
  version : String
  issueInstant : String
  destination : Option String
  consumerUrl : Option String
  protocolBinding : Option Binding
  forceAuthn : Bool
  isPassive : Bool
  issuer : Option String
  deriving DecidableEq, Repr

namespace AuthnRequest

def required (root : Element) (name : String) : Except Error String :=
  match root.tag.attribute? name with
  | some value => .ok value
  | none => .error (.malformed (.requestWithout name))

def flag (root : Element) (name : String) : Bool :=
  (root.tag.attribute? name).any
    (fun value => Text.trim value = "true" || Text.trim value = "1")

def ofRoot (root : Element) : Except Error AuthnRequest := do
  let version ← required root "Version"
  if version ≠ "2.0" then .error (.malformed (.requestVersion version))
  else do
    let id ← required root "ID"
    let issueInstant ← required root "IssueInstant"
    .ok
      { id := id
        version := version
        issueInstant := issueInstant
        destination := root.tag.attribute? "Destination"
        consumerUrl := root.tag.attribute? "AssertionConsumerServiceURL"
        protocolBinding := (root.tag.attribute? "ProtocolBinding").map Binding.ofUri
        forceAuthn := flag root "ForceAuthn"
        isPassive := flag root "IsPassive"
        issuer :=
          (root.childNamed? Namespaces.assertion "Issuer").map
            (fun issuer => Text.trim issuer.text) }

def ofDocument (document : Document) : Except Error AuthnRequest :=
  ofRoot document.root

def readDocument (limits : Limits) (text : String) : Except Error Document :=
  match Document.read? limits.nodes.toNat text with
  | none => .error (.malformed .document)
  | some document =>
    if document.root.tag.isNamed Namespaces.protocol "AuthnRequest" then .ok document
    else .error (.malformed (.noRequestElement document.root.tag.name.localName))

theorem readDocument_eq_ok_iff {limits : Limits} {text : String} {document : Document} :
    readDocument limits text = .ok document ↔
      Document.read? limits.nodes.toNat text = some document ∧
        document.root.tag.isNamed Namespaces.protocol "AuthnRequest" = true := by
  unfold readDocument
  constructor
  · intro isRead
    split at isRead
    · cases isRead
    · rename_i found spelled
      split at isRead
      · rename_i named
        cases isRead
        exact ⟨spelled, named⟩
      · cases isRead
  · intro parts
    rw [parts.1]
    exact if_pos parts.2

def read (limits : Limits) (text : String) : Except Error AuthnRequest := do
  let document ← readDocument limits text
  ofDocument document

end AuthnRequest

end SamlGate
