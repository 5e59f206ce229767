import SamlGate.Proofs.Canonical.Rereading
import SamlGate.Proofs.Xml.Subtrees

/-!
Canonical text as a text of the tree.

Where nothing is left out but comments, canonical text does not depend on positions, and it does not show
whether a text was in one piece. So two ways to leave nodes out are compared by the trees that they leave.
-/

namespace SamlGate.Canonical

open Xml

/-! ### Text without comments -/

def Form.leafText (form : Form) (first : Leaf) : List Char :=
  if first.isComment then [] else (form.leafPieces first).flatMap Piece.spelling

def Form.plainText (form : Form) (surroundings : Surroundings) : Content → List Char
  | .done => []
  | .leaf first rest => form.leafText first ++ form.plainText surroundings rest
  | .element tag inner rest =>
    elementSpelling form surroundings tag
        (form.plainText (surroundings.inside tag (some (form.startTag surroundings tag))) inner)
      ++ form.plainText surroundings rest

theorem leafText_eq {form : Form} {shown : Bool} {first : Leaf} (here : shown = !first.isComment) :
    (if shown then form.leafPieces first else []).flatMap Piece.spelling = form.leafText first := by
  unfold Form.leafText
  rw [here]
  cases first.isComment with
  | true => rfl
  | false => rfl

section Sequences

variable {form : Form} {subset : Bool} {shown : Nat → Bool} {surroundings : Surroundings} {start : Nat}

theorem contentSpelling_eq_plainText {content : Content}
    (shows : content.Throughout (fun position node => shown position = !node.isComment) start) :
    contentSpelling form shown surroundings start content = form.plainText surroundings content := by
  induction content generalizing surroundings start with
  | done =>
      rfl
  | leaf first rest ih =>
      obtain ⟨here, showsRest⟩ := shows.leaf
      rw [contentSpelling_leaf, leafText_eq here, ih showsRest, Form.plainText]
  | element tag inner rest ihInner ihRest =>
      obtain ⟨here, showsInner, showsRest⟩ := shows.element
      rw [contentSpelling_element here, ihInner showsInner, ihRest showsRest, Form.plainText]

theorem hidden_of_throughout {content : Content}
    (hides : content.Throughout (fun position _ => shown position = false) start) :
    Hidden shown start content := by
  intro position after before
  obtain ⟨index, same⟩ := Nat.exists_eq_add_of_le after
  subst same
  have within : index < content.nodes.length := by
    rw [Content.length_nodes]
    omega
  exact hides index _ (List.getElem?_eq_getElem within)

theorem miscPieces_congr {shownToo : Nat → Bool} {beforeRoot : Bool} {startToo : Nat} {items : List Misc}
    (same : ∀ index item, items[index]? = some item → shown (start + index) = shownToo (startToo + index)) :
    form.miscPieces shown beforeRoot start items = form.miscPieces shownToo beforeRoot startToo items := by
  induction items generalizing start startToo with
  | nil =>
      rfl
  | cons item items ih =>
      have here : shown start = shownToo startToo := same 0 item rfl
      rw [Form.miscPieces, Form.miscPieces, here]
      congr 1
      apply ih
      intro index later atIndex
      rw [Nat.add_right_comm start, Nat.add_right_comm startToo]
      exact same (index + 1) later atIndex

theorem miscPieces_congr_comments {form formToo : Form}
    (same : formToo.method.comments = form.method.comments) : formToo.miscPieces = form.miscPieces := by
  funext shown beforeRoot start items
  induction items generalizing start with
  | nil =>
      rfl
  | cons item items ih =>
      rw [Form.miscPieces, Form.miscPieces, ih, Form.keeps, Form.keeps, same]

theorem miscPieces_of_hidden {beforeRoot : Bool} {items : List Misc}
    (hidden : ∀ index, index < items.length → shown (start + index) = false) :
    form.miscPieces shown beforeRoot start items = [] := by
  induction items generalizing start with
  | nil =>
      rfl
  | cons item items ih =>
      have here : shown start = false := hidden 0 (Nat.zero_lt_succ _)
      have later : form.miscPieces shown beforeRoot (start + 1) items = [] := by
        apply ih
        intro index within
        rw [Nat.add_right_comm]
        exact hidden (index + 1) (Nat.succ_lt_succ within)
      rw [Form.miscPieces, later, here]
      rfl

end Sequences

/-- The canonical text of a document is that of the document element, between what is written of the comments
and instructions around it. -/
theorem flatMap_pieces (form : Form) (shown : Nat → Bool) (document : Document) :
    (form.pieces subset shown document).flatMap Piece.spelling =
      (form.miscPieces shown true 1 document.before).flatMap Piece.spelling ++
        (contentSpelling form shown (.outermost subset) document.rootPosition document.rootContent ++
          (form.miscPieces shown false (document.rootPosition + document.root.size)
            document.after).flatMap Piece.spelling) := by
  simp [Form.pieces, contentSpelling, Document.rootContent]

end SamlGate.Canonical
