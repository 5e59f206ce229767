import SamlGate.Xml.Document

/-!
From markup to a document.

An assembly is a document half read: the elements that are still open, innermost first, and what has been
finished outside them. Each piece of markup takes it one step further or is refused: an end tag that does
not repeat the innermost open name, text outside the document element, a second document element, a tag
without a meaning.

`Document.read?` is the whole reading of a text, with a bound on the number of nodes.
-/

namespace SamlGate.Xml

/-- An element whose end tag has not been met, with what it holds so far, most recent first. -/
structure OpenElement where
  tag : Tag
  held : List (Leaf ⊕ Element)
  deriving DecidableEq, Repr

def Content.ofReversed (held : List (Leaf ⊕ Element)) : Content :=
  held.foldl
    (fun rest item =>
      match item with
      | .inl first => .leaf first rest
      | .inr first => .element first.tag first.inner rest)
    .done

/-- Adds a node after the others. Text joins a text it touches. -/
def OpenElement.add (open_ : OpenElement) (item : Leaf ⊕ Element) : OpenElement :=
  match item, open_.held with
  | .inl (.text more), .inl (.text characters) :: earlier =>
    { open_ with held := .inl (.text (characters ++ more)) :: earlier }
  | item, held => { open_ with held := item :: held }

/-- A document half read. Lists are given most recent first. -/
structure Assembly where
  opened : List OpenElement
  before : List Misc
  root : Option Element
  after : List Misc
  deriving DecidableEq, Repr

namespace Assembly

def empty : Assembly :=
  { opened := [], before := [], root := none, after := [] }

def scope (assembly : Assembly) : Scope :=
  match assembly.opened with
  | [] => []
  | innermost :: _ => innermost.tag.scope

def addElement? (assembly : Assembly) (element : Element) : Option Assembly :=
  match assembly.opened with
  | innermost :: outer => some { assembly with opened := innermost.add (.inr element) :: outer }
  | [] => if assembly.root.isNone then some { assembly with root := some element } else none

def addText? (assembly : Assembly) (characters : List Char) : Option Assembly :=
  match assembly.opened with
  | innermost :: outer =>
    some { assembly with
      opened := innermost.add (.inl (.text (String.ofList characters))) :: outer }
  | [] => none

def addMisc (assembly : Assembly) (item : Misc) : Assembly :=
  match assembly.opened with
  | innermost :: outer =>
    { assembly with opened := innermost.add (.inl (.misc item)) :: outer }
  | [] =>
    if assembly.root.isNone then { assembly with before := item :: assembly.before }
    else { assembly with after := item :: assembly.after }

/-- One step further. Between tags outside the document element only blanks may stand, and they are
dropped. -/
def add? (assembly : Assembly) : Markup → Option Assembly
  | .opening name attributes closed => do
    let tag ← Tag.ofWritten? assembly.scope name attributes
    if closed then assembly.addElement? { tag, inner := .done }
    else pure { assembly with opened := { tag, held := [] } :: assembly.opened }
  | .closing name =>
    match assembly.opened with
    | innermost :: outer =>
      if innermost.tag.name = name then
        { assembly with opened := outer }.addElement?
          { tag := innermost.tag, inner := Content.ofReversed innermost.held }
      else none
    | [] => none
  | .run written =>
    if assembly.opened.isEmpty then
      if written.all isBlank then some assembly else none
    else (text? written).bind assembly.addText?
  | .verbatim written => assembly.addText? (verbatimText written)
  | .comment text => some (assembly.addMisc (.comment (String.ofList text)))
  | .instruction target value =>
    some (assembly.addMisc (.instruction (String.ofList target) (String.ofList value)))

def finish? (assembly : Assembly) : Option Document :=
  match assembly.opened, assembly.root with
  | [], some root =>
    some { before := assembly.before.reverse, root, after := assembly.after.reverse }
  | _, _ => none

end Assembly

def Document.ofMarkup? (pieces : List Markup) : Option Document :=
  (pieces.foldlM Assembly.add? Assembly.empty).bind Assembly.finish?

def defaultNodeLimit : Nat := 100000

/-- The document that a text spells, if it is one and has at most `limit` nodes. -/
def Document.read? (limit : Nat) (text : String) : Option Document := do
  let body ← Markup.afterProlog? text.toList
  let pieces ← Markup.readAll? body
  let document ← Document.ofMarkup? pieces
  if document.size ≤ limit then pure document else none

/-- A text is cut into pieces, the pieces are put together, and the document must not be too large. -/
theorem Document.read?_eq_some_iff {limit : Nat} {text : String} {document : Document} :
    Document.read? limit text = some document ↔
      ∃ body pieces last, Markup.afterProlog? text.toList = some body ∧
        Markup.readAll? body = some pieces ∧ pieces.foldlM Assembly.add? .empty = some last ∧
        last.finish? = some document ∧ document.size ≤ limit := by
  unfold Document.read? Document.ofMarkup?
  constructor
  · intro isRead
    obtain ⟨body, afterProlog, isRead⟩ := Option.bind_eq_some_iff.mp isRead
    obtain ⟨pieces, cut, isRead⟩ := Option.bind_eq_some_iff.mp isRead
    obtain ⟨found, assembled, bounded⟩ := Option.bind_eq_some_iff.mp isRead
    obtain ⟨last, added, finished⟩ := Option.bind_eq_some_iff.mp assembled
    split at bounded
    · rename_i small
      cases bounded
      exact ⟨body, pieces, last, afterProlog, cut, added, finished, small⟩
    · cases bounded
  · rintro ⟨body, pieces, last, afterProlog, cut, added, finished, small⟩
    simp [afterProlog, cut, added, finished, small]

end SamlGate.Xml
