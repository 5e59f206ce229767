import SamlGate.Xml.Scope

/-!
Documents as trees.

A document is one element with comments and processing instructions before and after it. What an element
holds is a sequence of leaves and elements, given as one inductive type so that everything said about a
document is a recursion over it. Texts that touch are one text.

Nodes are told apart by their position in document order: the document itself is at 0, and each element
comes before what it holds. The subtree at a position `p` fills the positions from `p` up to
`p + size`. Attributes and declarations belong to their tag and have no position.
-/

namespace SamlGate.Xml

/-- What may stand outside the document element. An instruction without data has the empty value. -/
inductive Misc where
  | comment (text : String)
  | instruction (target value : String)
  deriving DecidableEq, Repr

def Misc.isComment : Misc → Bool
  | .comment _ => true
  | .instruction _ _ => false

inductive Leaf where
  | text (characters : String)
  | misc (item : Misc)
  deriving DecidableEq, Repr

def Leaf.isComment : Leaf → Bool
  | .text _ => false
  | .misc item => item.isComment

def Leaf.text? : Leaf → Option String
  | .text characters => some characters
  | .misc _ => none

inductive Content where
  | done
  | leaf (first : Leaf) (rest : Content)
  | element (tag : Tag) (inner rest : Content)
  deriving DecidableEq, Repr

structure Element where
  tag : Tag
  inner : Content
  deriving DecidableEq, Repr

structure Document where
  before : List Misc
  root : Element
  after : List Misc
  deriving DecidableEq, Repr

def Content.size : Content → Nat
  | .done => 0
  | .leaf _ rest => rest.size + 1
  | .element _ inner rest => inner.size + rest.size + 1

def Element.size (element : Element) : Nat :=
  element.inner.size + 1

/-- The number of nodes, the document itself being one. -/
def Document.size (document : Document) : Nat :=
  document.before.length + document.root.size + document.after.length + 1

def Document.rootPosition (document : Document) : Nat :=
  document.before.length + 1

def Content.text : Content → List Char
  | .done => []
  | .leaf (.text characters) rest => characters.toList ++ rest.text
  | .leaf (.misc _) rest => rest.text
  | .element _ inner rest => inner.text ++ rest.text

def Element.text (element : Element) : String :=
  String.ofList element.inner.text

inductive Node where
  | document (whole : Document)
  | element (held : Element)
  | leaf (held : Leaf)
  deriving DecidableEq, Repr

def Node.isComment : Node → Bool
  | .leaf held => held.isComment
  | _ => false

def Node.size : Node → Nat
  | .document whole => whole.size
  | .element held => held.size
  | .leaf _ => 1

/-- The text of a node: what its texts say, itself included. -/
def Node.text : Node → String
  | .document whole => whole.root.text
  | .element held => held.text
  | .leaf held => held.text?.getD ""

def Node.localName : Node → String
  | .element held => held.tag.name.localName
  | _ => ""

def Node.isElement (node : Node) (namespaceUri localName : String) : Bool :=
  match node with
  | .element held => held.tag.isNamed namespaceUri localName
  | _ => false

end SamlGate.Xml
