import SamlGate.Error
import SamlGate.Xml.NodeSet

/-!
References within a document.

An element is identified by its attributes `ID`, `Id` and `id` that have no namespace. A document in which
two such attributes have one value, on two elements or on one, has no identifiers at all, so that a
reference never chooses between elements. The empty reference selects the whole document, a fragment the
subtree of the element it names, each less its comments; nothing outside the document can be referred to.
-/

namespace SamlGate.Xml

def Attribute.isIdentifier (given : Attribute) : Bool :=
  given.namespaceUri = none
    && (given.name.localName = "ID" || given.name.localName = "Id" || given.name.localName = "id")

def Tag.identifiers (tag : Tag) : List String :=
  (tag.attributes.filter Attribute.isIdentifier).map Attribute.value

structure Identifier where
  value : String
  position : Nat
  deriving DecidableEq, Repr

def Content.identifiers (start : Nat) : Content → List Identifier
  | .done => []
  | .leaf _ rest => rest.identifiers (start + 1)
  | .element tag inner rest =>
    tag.identifiers.map (fun value => ⟨value, start⟩)
      ++ (inner.identifiers (start + 1) ++ rest.identifiers (start + 1 + inner.size))

def Document.identifiers (document : Document) : List Identifier :=
  document.content.identifiers 1

/-- The first value that occurs a second time, given the values met before. -/
def firstRepeated? (met : List String) : List String → Option String
  | [] => none
  | value :: rest =>
    if value ∈ met then some value else firstRepeated? (value :: met) rest

def Document.identifierMap (document : Document) : Except Error (List Identifier) :=
  match firstRepeated? [] (document.identifiers.map Identifier.value) with
  | some value => .error (.malformed (.duplicateIdentifier value))
  | none => .ok document.identifiers

def fragment? (uri : String) : Option String :=
  match uri.toList with
  | '#' :: name => some (String.ofList name)
  | _ => none

def Document.resolve (document : Document) (identifiers : List Identifier) (value : String) :
    Except Error Site :=
  match (identifiers.find? (fun known => known.value = value)).bind
      (fun known => document.site? known.position) with
  | some site => .ok site
  | none => .error (.malformed (.unknownIdentifier value))

/-- What a reference selects: an element, and the nodes that are its object. -/
structure Selection where
  site : Site
  nodes : NodeSet
  deriving DecidableEq, Repr

def Document.select (document : Document) (identifiers : List Identifier) (uri : String) :
    Except Error Selection :=
  if uri = "" then
    .ok { site := document.rootSite, nodes := NodeSet.allWithoutComments document }
  else
    match fragment? uri with
    | none => .error (.malformed (.externalReference uri))
    | some value => do
      let site ← document.resolve identifiers value
      .ok { site, nodes := NodeSet.treeWithoutComments document site }

end SamlGate.Xml
