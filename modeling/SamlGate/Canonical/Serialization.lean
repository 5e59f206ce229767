import SamlGate.Canonical.StartTag
import SamlGate.Error
import SamlGate.Xml.NodeSet

/-!
Canonical text of a document.

The canonical text is made of pieces: start tags, end tags, texts, comments and instructions, and the line
breaks that separate the latter from the document element. A node that is not shown gives no piece itself,
but what it holds is looked at all the same. Without a node set every node is shown.
-/

namespace SamlGate.Canonical

open Xml

inductive Piece where
  | opening (position : Nat) (tag : StartTag)
  | closing (name : String)
  | text (characters : String)
  | misc (item : Misc)
  | lineBreak
  deriving DecidableEq, Repr

def writtenMisc : Misc → List Char
  | .comment text => "<!--".toList ++ text.toList ++ "-->".toList
  | .instruction target value =>
    "<?".toList ++ target.toList
      ++ (if value = "" then [] else ' ' :: escaped .instruction value) ++ "?>".toList

def Piece.spelling : Piece → List Char
  | .opening _ tag => tag.spelling
  | .closing name => "</".toList ++ name.toList ++ ['>']
  | .text characters => escaped .text characters
  | .misc item => writtenMisc item
  | .lineBreak => ['\n']

def Form.keeps (form : Form) (item : Misc) : Bool :=
  form.method.comments || !item.isComment

def Form.leafPieces (form : Form) : Leaf → List Piece
  | .text characters => [.text characters]
  | .misc item => if form.keeps item then [.misc item] else []

/-- What surrounds the content of an element: below a shown element its declarations are known. -/
def Surroundings.inside (surroundings : Surroundings) (tag : Tag) (output : Option StartTag) :
    Surroundings :=
  { subset := surroundings.subset
    declared := (output.map StartTag.declarations).getD [] ++ surroundings.declared
    ancestors := tag :: surroundings.ancestors
    held := output.isSome }

def Form.contentPieces (form : Form) (shown : Nat → Bool) (surroundings : Surroundings)
    (start : Nat) : Content → List Piece
  | .done => []
  | .leaf first rest =>
    (if shown start then form.leafPieces first else [])
      ++ form.contentPieces shown surroundings (start + 1) rest
  | .element tag inner rest =>
    let output := if shown start then some (form.startTag surroundings tag) else none
    let within := form.contentPieces shown (surroundings.inside tag output) (start + 1) inner
    (match output with
      | some opening => .opening start opening :: within ++ [.closing opening.name]
      | none => within)
      ++ form.contentPieces shown surroundings (start + 1 + inner.size) rest

/-- The pieces of comments and instructions outside the document element, each with its line break, which
stands between it and the document element. -/
def Form.miscPieces (form : Form) (shown : Nat → Bool) (beforeRoot : Bool) (start : Nat) :
    List Misc → List Piece
  | [] => []
  | item :: rest =>
    (if shown start && form.keeps item then
      (if beforeRoot then [.misc item, .lineBreak] else [.lineBreak, .misc item])
    else [])
      ++ form.miscPieces shown beforeRoot (start + 1) rest

/-- The pieces of a document. Beside which nodes are shown it matters whether a set says so. -/
def Form.pieces (form : Form) (subset : Bool) (shown : Nat → Bool) (document : Document) : List Piece :=
  form.miscPieces shown true 1 document.before
    ++ form.contentPieces shown (.outermost subset) document.rootPosition
        (.element document.root.tag document.root.inner .done)
    ++ form.miscPieces shown false (document.rootPosition + document.root.size) document.after

def shownBy (set : Option NodeSet) (position : Nat) : Bool :=
  match set with
  | some nodes => nodes.has position
  | none => true

def Form.text (form : Form) (document : Document) (set : Option NodeSet) : String :=
  String.ofList ((form.pieces set.isSome (shownBy set) document).flatMap Piece.spelling)

def Form.octets (form : Form) (document : Document) (set : Option NodeSet) : Octets :=
  Octets.ofText (form.text document set)

def readDocument (text : String) : Except Error Document :=
  match Document.read? defaultNodeLimit text with
  | some document => .ok document
  | none => .error (.malformed .document)

def Form.octetsOfText (form : Form) (text : String) : Except Error Octets :=
  (readDocument text).map (fun document => form.octets document none)

end SamlGate.Canonical
