import SamlGate.Xml.Assembly

/-!
Positions in a document.

`Document.nodes` lists the nodes in document order, so a node's position is its index there. A `Site` is a
node together with its position; the sites directly below a node are found by adding up sizes.
-/

namespace SamlGate.Xml

def Content.nodes : Content → List Node
  | .done => []
  | .leaf first rest => .leaf first :: rest.nodes
  | .element tag inner rest => .element ⟨tag, inner⟩ :: (inner.nodes ++ rest.nodes)

/-- The elements of a sequence, those below them left out. -/
def Content.elements : Content → List Element
  | .done => []
  | .leaf _ rest => rest.elements
  | .element tag inner rest => ⟨tag, inner⟩ :: rest.elements

def Content.ofMisc (items : List Misc) (rest : Content) : Content :=
  items.foldr (fun item rest => .leaf (.misc item) rest) rest

def Document.content (document : Document) : Content :=
  Content.ofMisc document.before
    (.element document.root.tag document.root.inner (Content.ofMisc document.after .done))

/-- All nodes of a document in document order, beginning with the document itself. -/
def Document.nodes (document : Document) : List Node :=
  .document document :: document.content.nodes

structure Site where
  position : Nat
  node : Node
  deriving DecidableEq, Repr

def Document.site? (document : Document) (position : Nat) : Option Site :=
  document.nodes[position]?.map (fun node => ⟨position, node⟩)

def Document.site (document : Document) : Site :=
  ⟨0, .document document⟩

def Document.rootSite (document : Document) : Site :=
  ⟨document.rootPosition, .element document.root⟩

/-- The position after the subtree at a site. -/
def Site.stop (site : Site) : Nat :=
  site.position + site.node.size

/-- The sites of a sequence that begins at `start`, those below them left out. -/
def Content.sites (start : Nat) : Content → List Site
  | .done => []
  | .leaf first rest => ⟨start, .leaf first⟩ :: rest.sites (start + 1)
  | .element tag inner rest =>
    ⟨start, .element ⟨tag, inner⟩⟩ :: rest.sites (start + 1 + inner.size)

def Site.children (site : Site) : List Site :=
  match site.node with
  | .document document => document.content.sites (site.position + 1)
  | .element element => element.inner.sites (site.position + 1)
  | .leaf _ => []

def Site.childrenNamed (site : Site) (namespaceUri localName : String) : List Site :=
  site.children.filter (fun child => child.node.isElement namespaceUri localName)

def Site.childNamed? (site : Site) (namespaceUri localName : String) : Option Site :=
  site.children.find? (fun child => child.node.isElement namespaceUri localName)

def Element.childrenNamed (element : Element) (namespaceUri localName : String) : List Element :=
  element.inner.elements.filter (fun child => child.tag.isNamed namespaceUri localName)

def Element.childNamed? (element : Element) (namespaceUri localName : String) : Option Element :=
  element.inner.elements.find? (fun child => child.tag.isNamed namespaceUri localName)

def Element.descendantsNamed (element : Element) (namespaceUri localName : String) : List Element :=
  element.inner.nodes.filterMap
    (fun node =>
      match node with
      | .element held => if held.tag.isNamed namespaceUri localName then some held else none
      | _ => none)

/-- The position of the element that holds the node at `target` directly. The sequence begins at `start`
and is held by the element at `owner`. -/
def Content.holder? (target owner start : Nat) : Content → Option Nat
  | .done => none
  | .leaf _ rest => if target = start then some owner else rest.holder? target owner (start + 1)
  | .element _ inner rest =>
    if target = start then some owner
    else if target < start + 1 + inner.size then inner.holder? target start (start + 1)
    else rest.holder? target owner (start + 1 + inner.size)

/-- The position of the element that holds the node at `target` directly; the document element and what
stands beside it are held by none. -/
def Document.holder? (document : Document) (target : Nat) : Option Nat :=
  document.root.inner.holder? target document.rootPosition (document.rootPosition + 1)

end SamlGate.Xml
