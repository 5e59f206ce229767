import SamlGate.Xml.Markup

/-!
Namespace scopes and tags.

A scope lists the bindings in force at an element. An element that declares nothing has the scope of the
one around it; any other has its own declarations in the order written, then one binding for each further
prefix of the scope around it. A name means what the first binding of its prefix says; the default binding
has the empty prefix and never applies to attributes.

`Tag.ofWritten?` gives the tag of a start tag its meaning, and fails if a prefix is not declared, a
declaration is not allowed, or two attributes mean the same name.
-/

namespace SamlGate.Xml

def xmlNamespace : String := "http://www.w3.org/XML/1998/namespace"

/-- The namespace of the prefix of declarations, which nothing may be bound to. -/
def xmlnsNamespace : String := "http://www.w3.org/2000/xmlns/"

structure PrefixBinding where
  nsPrefix : String
  uri : String
  deriving DecidableEq, Repr

abbrev Scope := List PrefixBinding

/-- The namespace bound to the prefix, by the first binding that there is. -/
def Scope.lookup? (scope : Scope) (nsPrefix : String) : Option String :=
  (scope.find? (fun binding => binding.nsPrefix = nsPrefix)).map PrefixBinding.uri

/-- The first binding of each prefix that is not among those taken. -/
def Scope.others (taken : List String) : Scope → Scope
  | [] => []
  | binding :: rest =>
    if binding.nsPrefix ∈ taken then Scope.others taken rest
    else binding :: Scope.others (binding.nsPrefix :: taken) rest

def Scope.within (own outer : Scope) : Scope :=
  if own.isEmpty then outer else own ++ outer.others (own.map PrefixBinding.nsPrefix)

structure Attribute where
  name : QName
  namespaceUri : Option String
  value : String
  deriving DecidableEq, Repr

structure Tag where
  name : QName
  namespaceUri : Option String
  attributes : List Attribute
  scope : Scope
  deriving DecidableEq, Repr

/-- The value of the attribute with this local name and no namespace. -/
def Tag.attribute? (tag : Tag) (localName : String) : Option String :=
  (tag.attributes.find? (fun given => given.namespaceUri = none && given.name.localName = localName)).map
    Attribute.value

/-- Whether the tag has this local name in this namespace; the empty namespace is that of names without
one. -/
def Tag.isNamed (tag : Tag) (namespaceUri localName : String) : Bool :=
  tag.name.localName = localName && tag.namespaceUri.getD "" = namespaceUri

def WrittenAttribute.binding? (written : WrittenAttribute) : Option PrefixBinding :=
  if written.name.nsPrefix = "xmlns" then some ⟨written.name.localName, written.value⟩
  else if written.name.localName = "xmlns" then some ⟨"", written.value⟩
  else none

/-- The built-in prefix keeps its namespace, no other prefix gets it, and none gets the namespace of
declarations. -/
def PrefixBinding.isAllowed (binding : PrefixBinding) : Bool :=
  binding.uri ≠ xmlnsNamespace
    && (decide (binding.nsPrefix = "xml") == decide (binding.uri = xmlNamespace))

/-- The declarations of a start tag, if they are allowed and none of a prefix is repeated. The built-in
binding is left out when it is spelled out. -/
def Scope.ofWritten? (written : List WrittenAttribute) : Option Scope :=
  let declared := written.filterMap WrittenAttribute.binding?
  let own := declared.filter (fun binding => binding.uri ≠ xmlNamespace)
  let prefixed := (own.map PrefixBinding.nsPrefix).filter (fun nsPrefix => nsPrefix ≠ "")
  if declared.all PrefixBinding.isAllowed ∧ prefixed.Nodup then some own else none

def Scope.elementNamespace? (scope : Scope) (name : QName) : Option (Option String) :=
  match scope.lookup? name.nsPrefix with
  | some uri => some (some uri)
  | none => if name.nsPrefix = "" then some none else none

def Scope.attributeNamespace? (scope : Scope) (name : QName) : Option (Option String) :=
  if name.nsPrefix = "" then some none
  else if name.nsPrefix = "xml" then some (some xmlNamespace)
  else (scope.lookup? name.nsPrefix).map some

/-- What makes two attributes the same. -/
def Attribute.meaning (given : Attribute) : Option String × String :=
  (given.namespaceUri, given.name.localName)

def Attribute.ofWritten? (scope : Scope) (written : WrittenAttribute) : Option Attribute :=
  (scope.attributeNamespace? written.name).map
    (fun namespaceUri => ⟨written.name, namespaceUri, written.value⟩)

def Tag.ofWritten? (outer : Scope) (name : QName) (written : List WrittenAttribute) : Option Tag := do
  let own ← Scope.ofWritten? written
  let scope := Scope.within own outer
  let namespaceUri ← scope.elementNamespace? name
  let attributes ←
    (written.filter (fun given => given.binding?.isNone)).mapM (Attribute.ofWritten? scope)
  if name.nsPrefix ≠ "xmlns" ∧ (attributes.map Attribute.meaning).Nodup then
    pure { name, namespaceUri, attributes, scope }
  else none

end SamlGate.Xml
