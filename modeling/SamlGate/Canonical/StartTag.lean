import SamlGate.Canonical.Escape
import SamlGate.Canonical.Method
import SamlGate.Canonical.Order
import SamlGate.Xml.Position

/-!
Start tags in canonical text.

A canonical start tag carries declarations, then attributes, each in order: the default declaration first,
then by prefix; attributes without a namespace first, then by namespace and local name.

A declaration is written where it says something new. What is already said is `Surroundings.declared`, the
declarations on the start tags around this one, innermost first. With a set of nodes, an element whose parent
is left out takes over the `xml` attributes of its ancestors, the nearest one of each name; only inclusive
methods do so.
-/

namespace SamlGate.Canonical

open Xml

structure Field where
  written : String
  namespaceUri : String
  localName : String
  value : String
  deriving DecidableEq, Repr

def Field.ofAttribute (given : Attribute) : Field :=
  { written := given.name.written
    namespaceUri := given.namespaceUri.getD ""
    localName := given.name.localName
    value := given.value }

/-- The order of attributes: by namespace, then by local name. No namespace is the least. -/
def Field.precedes (left right : Field) : Bool :=
  left.namespaceUri < right.namespaceUri
    || (left.namespaceUri = right.namespaceUri && left.localName < right.localName)

def declaredBefore (left right : PrefixBinding) : Bool :=
  left.nsPrefix < right.nsPrefix

structure StartTag where
  name : String
  declarations : List PrefixBinding
  fields : List Field
  deriving DecidableEq, Repr

def writtenDeclaration (binding : PrefixBinding) : List Char :=
  " xmlns".toList
    ++ (if binding.nsPrefix = "" then [] else ':' :: binding.nsPrefix.toList)
    ++ "=\"".toList ++ escaped .attributeValue binding.uri ++ ['"']

def Field.spelling (field : Field) : List Char :=
  ' ' :: field.written.toList ++ "=\"".toList ++ escaped .attributeValue field.value ++ ['"']

def StartTag.spelling (tag : StartTag) : List Char :=
  '<' :: tag.name.toList ++ tag.declarations.flatMap writtenDeclaration
    ++ tag.fields.flatMap Field.spelling ++ ['>']

structure Surroundings where
  /-- Whether a set says which nodes are output. -/
  subset : Bool
  /-- The declarations of the start tags around, innermost first. -/
  declared : Scope
  /-- The tags around, output or not, innermost first. -/
  ancestors : List Tag
  /-- Whether the innermost of them is output. -/
  held : Bool
  deriving DecidableEq, Repr

def Surroundings.outermost (subset : Bool) : Surroundings :=
  { subset := subset, declared := [], ancestors := [], held := false }

/-- The namespace in force for a prefix. The empty namespace is none; of several declarations of one
prefix the last counts. -/
def inForce? (scope : Scope) (nsPrefix : String) : Option String :=
  ((scope.filter (fun binding => binding.nsPrefix = nsPrefix && binding.uri ≠ "")).getLast?).map
    PrefixBinding.uri

def bindingsInForce (scope : Scope) : List PrefixBinding :=
  (distinct (scope.map PrefixBinding.nsPrefix)).filterMap
    (fun nsPrefix => (inForce? scope nsPrefix).map (fun uri => ⟨nsPrefix, uri⟩))

def attributePrefixes (tag : Tag) : List String :=
  (tag.attributes.map (fun given => given.name.nsPrefix)).filter
    (fun nsPrefix => nsPrefix ≠ "" && nsPrefix ≠ "xml")

/-- The prefixes whose declaration is due at a tag, if it says something new. -/
def Form.candidates (form : Form) (tag : Tag) : List String :=
  if form.method.exclusive then
    tag.name.nsPrefix :: attributePrefixes tag ++ form.listed.map listedPrefix
  else "" :: tag.scope.map PrefixBinding.nsPrefix

/-- The declaration of a prefix, where it differs from what the output says already. Only the default
namespace can be taken back. -/
def declaration? (declared scope : Scope) (nsPrefix : String) : Option PrefixBinding :=
  match inForce? scope nsPrefix with
  | some uri => if declared.lookup? nsPrefix = some uri then none else some ⟨nsPrefix, uri⟩
  | none =>
    if nsPrefix = "" ∧ (declared.lookup? "").getD "" ≠ "" then some ⟨"", ""⟩ else none

/-- The declarations on a start tag. The built-in prefix is never declared. -/
def Form.declarations (form : Form) (declared : Scope) (tag : Tag) : List PrefixBinding :=
  ((distinct (form.candidates tag)).filter (fun nsPrefix => nsPrefix ≠ "xml")).filterMap
    (declaration? declared tag.scope)

def nearest (taken : List String) : List Attribute → List Attribute
  | [] => []
  | given :: rest =>
    if given.name.localName ∈ taken then nearest taken rest
    else given :: nearest (given.name.localName :: taken) rest

def xmlAttributes (tag : Tag) : List Attribute :=
  tag.attributes.filter (fun given => given.namespaceUri = some xmlNamespace)

def inheritedFields (tag : Tag) (ancestors : List Tag) : List Field :=
  (nearest ((xmlAttributes tag).map (fun given => given.name.localName))
    (ancestors.flatMap xmlAttributes)).map
    (fun given =>
      { written := "xml:" ++ given.name.localName
        namespaceUri := xmlNamespace
        localName := given.name.localName
        value := given.value })

def Form.takesOver (form : Form) (surroundings : Surroundings) : Bool :=
  !form.method.exclusive && surroundings.subset && !surroundings.held

def Form.fields (form : Form) (surroundings : Surroundings) (tag : Tag) : List Field :=
  let own := tag.attributes.map Field.ofAttribute
  arrange Field.precedes
    (if form.takesOver surroundings then own ++ inheritedFields tag surroundings.ancestors else own)

def Form.startTag (form : Form) (surroundings : Surroundings) (tag : Tag) : StartTag :=
  { name := tag.name.written
    declarations := form.declarations surroundings.declared tag
    fields := form.fields surroundings tag }

end SamlGate.Canonical
