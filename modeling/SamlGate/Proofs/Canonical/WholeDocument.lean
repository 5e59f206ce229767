import SamlGate.Proofs.Canonical.Comments

/-!
Whole documents, with and without comments.

A document is canonicalized as it is or by a set of its nodes, and comments are kept out by the form or by the
set. All of these ways agree: the set of all nodes stands for no set, and a set without comments for the form
without comments. Attributes are taken over with a set only; but where everything is shown none are there to be
taken over. What a comment outside the document element takes along is its own line break only, so the line
breaks of the instructions there stay as they are.
-/

namespace SamlGate.Canonical

open Xml

/-! ### Which nodes matter -/

section Congruence

variable {form : Form} {subset : Bool} {shown shownToo : Nat → Bool}

private theorem contentPieces_congr {surroundings : Surroundings} {start : Nat} {content : Content}
    (same : content.Throughout (fun position _ => shown position = shownToo position) start) :
    form.contentPieces shown surroundings start content =
      form.contentPieces shownToo surroundings start content := by
  induction content generalizing surroundings start with
  | done =>
      rfl
  | leaf first rest ih =>
      have parts := same.leaf
      rw [Form.contentPieces, Form.contentPieces, parts.1, ih parts.2]
  | element tag inner rest ihInner ihRest =>
      have parts := same.element
      rw [Form.contentPieces, Form.contentPieces, parts.1, ihInner parts.2.1, ihRest parts.2.2]

private theorem pieces_congr {document : Document}
    (same : ∀ position, position < document.size → shown position = shownToo position) :
    form.pieces subset shown document = form.pieces subset shownToo document := by
  have within {position : Nat} {node : Node} (found : document.nodes[position]? = some node) :
      position < document.size := by
    rw [← document.length_nodes]
    exact (List.getElem?_eq_some_iff.mp found).1
  have before : form.miscPieces shown true 1 document.before =
      form.miscPieces shownToo true 1 document.before := by
    apply miscPieces_congr
    intro index item atIndex
    exact same _ (within (document.getElem?_nodes_before atIndex))
  have after : form.miscPieces shown false (document.rootPosition + document.root.size) document.after =
      form.miscPieces shownToo false (document.rootPosition + document.root.size) document.after := by
    apply miscPieces_congr
    intro index item atIndex
    apply same
    apply @within _ (.leaf (.misc item))
    rw [document.getElem?_nodes_after, atIndex, Option.map_some]
  have inRoot : document.rootContent.Throughout (fun position _ => shown position = shownToo position)
      document.rootPosition := by
    apply Document.throughout_rootContent
    intro position node found _ _
    exact same position (within found)
  unfold Form.pieces
  rw [before, after]
  congr 2
  exact contentPieces_congr inRoot

end Congruence

/-! ### No set of nodes -/

/-- Where everything is shown, it does not matter whether a set says so. Each element has one around it that
is output, or has none around it at all. -/
theorem contentPieces_subset (form : Form) (subset : Bool) {shown : Nat → Bool} {surroundings : Surroundings}
    {start : Nat} {content : Content} (parent : surroundings.held = true ∨ surroundings.ancestors = [])
    (allShown : content.Throughout (fun position _ => shown position = true) start) :
    form.contentPieces shown { surroundings with subset := subset } start content =
      form.contentPieces shown surroundings start content := by
  induction content generalizing surroundings start with
  | done =>
      rfl
  | leaf first rest ih =>
      rw [Form.contentPieces, Form.contentPieces, ih parent allShown.leaf.2]
  | element tag inner rest ihInner ihRest =>
      obtain ⟨here, below, behind⟩ := allShown.element
      have alone : TakesNothingOver form surroundings :=
        parent.imp_left fun held => takesOver_of_held held form
      have aloneToo : TakesNothingOver form { surroundings with subset := subset } :=
        parent.imp_left fun held => takesOver_of_held held form
      have startTags : form.startTag { surroundings with subset := subset } tag =
          form.startTag surroundings tag := by
        unfold Form.startTag
        rw [fields_eq alone, fields_eq aloneToo]
      have inside := @ihInner (surroundings.inside tag (some (form.startTag surroundings tag))) _
        (.inl rfl) below
      rw [Form.contentPieces, Form.contentPieces, ihRest parent behind, startTags]
      simp only [here, if_true]
      rw [← inside]
      rfl

/-- The pieces that a set or no set gives are those of what is shown. -/
theorem pieces_shownBy (form : Form) (set : Option NodeSet) (document : Document) :
    form.pieces set.isSome (shownBy set) document = form.pieces true (shownBy set) document := by
  cases set with
  | some nodes =>
      rfl
  | none =>
      have inRoot : form.contentPieces (shownBy none) (.outermost false) document.rootPosition
            document.rootContent =
          form.contentPieces (shownBy none) (.outermost true) document.rootPosition document.rootContent :=
        @contentPieces_subset form false _ (.outermost true) _ _ (.inr rfl) (fun _ _ _ => rfl)
      unfold Document.rootContent at inRoot
      rw [Option.isSome_none, Form.pieces, Form.pieces, inRoot]

theorem octets_congr {document : Document} {set setToo : NodeSet} (form : Form)
    (same : ∀ position, set.has position = setToo.has position) :
    form.octets document (some set) = form.octets document (some setToo) := by
  have pieces := @pieces_congr form true (shownBy (some set)) (shownBy (some setToo)) document
    (fun position _ => same position)
  unfold Form.octets Form.text
  exact congrArg (fun pieces => Octets.ofText (String.ofList (pieces.flatMap Piece.spelling))) pieces

private theorem has_all {document : Document} {position : Nat} (within : position < document.size) :
    (NodeSet.all document).has position = true := by
  have among : position < document.nodes.length := by
    simpa using within
  have found := List.getElem?_eq_getElem among
  rw [NodeSet.all, NodeSet.tree, NodeSet.has_select, found]
  simpa [Document.site, Site.stop, Node.size] using within

theorem octets_all (form : Form) (document : Document) :
    form.octets document (some (NodeSet.all document)) = form.octets document none := by
  unfold Form.octets Form.text
  rw [pieces_shownBy form none, Option.isSome_some, pieces_congr]
  intro position within
  exact has_all within

private theorem octets_setWithoutComments (form : Form) (document : Document) (set : NodeSet) :
    form.octets document (some (set.withoutComments document)) =
      form.withoutComments.octets document (some set) := by
  apply octets_of_hides
  intro position node found
  change (set.withoutComments document).has position = (set.has position && !node.isComment)
  rw [NodeSet.withoutComments, NodeSet.has_select, found, Option.map_some, Option.getD_some]

/-! ### Line breaks -/

def Piece.isComment : Piece → Bool
  | .misc item => item.isComment
  | _ => false

def shownItems (shown : Nat → Bool) (start : Nat) : List Misc → List Misc
  | [] => []
  | item :: rest =>
    if shown start then item :: shownItems shown (start + 1) rest else shownItems shown (start + 1) rest

/-- An item outside the document element and the line break that separates it from the element. -/
def separated (beforeRoot : Bool) (item : Misc) : List Piece :=
  if beforeRoot then [.misc item, .lineBreak] else [.lineBreak, .misc item]

section LineBreaks

variable {form : Form} {subset : Bool} {shown : Nat → Bool} {surroundings : Surroundings} {start : Nat}

private theorem miscPieces_eq_flatMap (beforeRoot : Bool) (items : List Misc) :
    form.miscPieces shown beforeRoot start items =
      ((shownItems shown start items).filter form.keeps).flatMap (separated beforeRoot) := by
  induction items generalizing start with
  | nil =>
      rfl
  | cons item items ih =>
      rw [Form.miscPieces, shownItems, ih]
      cases here : shown start with
      | false =>
          rfl
      | true =>
          cases kept : form.keeps item with
          | false =>
              simp [kept]
          | true =>
              simp [kept, separated]

private theorem leafPieces_withoutComments (first : Leaf) :
    form.withoutComments.leafPieces first = (form.leafPieces first).filter (fun piece => !piece.isComment) := by
  cases first with
  | text characters =>
      rfl
  | misc item =>
      cases comment : item.isComment with
      | false =>
          simp [Form.leafPieces, Form.keeps, Piece.isComment, comment]
      | true =>
          cases written : form.method.comments with
          | false =>
              simp [Form.leafPieces, Form.keeps, Form.withoutComments, comment, written]
          | true =>
              simp [Form.leafPieces, Form.keeps, Form.withoutComments, Piece.isComment, comment, written]

/-- Below the document element the form without comments writes what is left when the comments are struck. -/
theorem contentPieces_withoutComments (content : Content) :
    form.withoutComments.contentPieces shown surroundings start content =
      (form.contentPieces shown surroundings start content).filter (fun piece => !piece.isComment) := by
  induction content generalizing surroundings start with
  | done =>
      rfl
  | leaf first rest ih =>
      rw [Form.contentPieces, Form.contentPieces, ih, List.filter_append]
      congr 1
      cases shown start with
      | false =>
          rfl
      | true =>
          exact leafPieces_withoutComments first
  | element tag inner rest ihInner ihRest =>
      have startTags : form.withoutComments.startTag surroundings tag = form.startTag surroundings tag := rfl
      rw [Form.contentPieces, Form.contentPieces, startTags, ihInner, ihRest, List.filter_append]
      congr 1
      cases shown start with
      | false =>
          rfl
      | true =>
          simp [Piece.isComment]

end LineBreaks

/-- The pieces of a document: items before the document element, what is in it, and items after it. -/
def framed (before : List Misc) (inRoot : List Piece) (after : List Misc) : List Piece :=
  before.flatMap (separated true) ++ inRoot ++ after.flatMap (separated false)

private theorem pieces_eq_framed (form : Form) (subset : Bool) (shown : Nat → Bool) (document : Document) :
    form.pieces subset shown document =
      framed ((shownItems shown 1 document.before).filter form.keeps)
        (form.contentPieces shown (.outermost subset) document.rootPosition document.rootContent)
        ((shownItems shown (document.rootPosition + document.root.size) document.after).filter
          form.keeps) := by
  unfold Form.pieces framed
  rw [miscPieces_eq_flatMap, miscPieces_eq_flatMap]
  rfl

/-- However a document is handed over and wherever its comments are kept out, the octets are the same. The form
without comments strikes each comment with the line break that is its own; every instruction outside the
document element keeps its line break. -/
theorem octets_eq_on_every_path (exclusive : Bool) (listed : List String) (document : Document)
    (set : NodeSet) :
    (∀ comments, Form.octets ⟨⟨exclusive, comments⟩, listed⟩ document none =
        Form.octets ⟨⟨exclusive, comments⟩, listed⟩ document (some (NodeSet.all document))) ∧
      Form.octets ⟨⟨exclusive, false⟩, listed⟩ document (some (set.withoutComments document)) =
        Form.octets ⟨⟨exclusive, false⟩, listed⟩ document (some set) ∧
      Form.octets ⟨⟨exclusive, true⟩, listed⟩ document (some (set.withoutComments document)) =
        Form.octets ⟨⟨exclusive, false⟩, listed⟩ document (some set) ∧
      ∀ (subset : Bool) (shown : Nat → Bool), ∃ inRoot : List Piece,
        Form.pieces ⟨⟨exclusive, true⟩, listed⟩ subset shown document =
            framed (shownItems shown 1 document.before) inRoot
              (shownItems shown (document.rootPosition + document.root.size) document.after) ∧
          Form.pieces ⟨⟨exclusive, false⟩, listed⟩ subset shown document =
            framed ((shownItems shown 1 document.before).filter (fun item => !item.isComment))
              (inRoot.filter (fun piece => !piece.isComment))
              ((shownItems shown (document.rootPosition + document.root.size) document.after).filter
                (fun item => !item.isComment)) := by
  refine ⟨?_, octets_setWithoutComments _ document set, octets_setWithoutComments _ document set, ?_⟩
  · intro comments
    exact (octets_all _ document).symm
  · intro subset shown
    have allKept (items : List Misc) : items.filter (Form.keeps ⟨⟨exclusive, true⟩, listed⟩) = items :=
      List.filter_eq_self.mpr (fun _ _ => rfl)
    refine ⟨Form.contentPieces ⟨⟨exclusive, true⟩, listed⟩ shown (.outermost subset)
      document.rootPosition document.rootContent, ?_, ?_⟩
    · rw [pieces_eq_framed, allKept, allKept]
    · rw [pieces_eq_framed, ← contentPieces_withoutComments]
      rfl

end SamlGate.Canonical
