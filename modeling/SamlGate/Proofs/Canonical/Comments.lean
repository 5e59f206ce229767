import Mathlib.Data.List.Flatten
import SamlGate.Proofs.Canonical.PlainText
import SamlGate.Proofs.Xml.Subtrees

/-!
Comments in canonical text.

Comments are kept out in two ways, by the form and by the set of nodes. Either way gives the same text, so a
set without comments makes of every form the one without comments. Where a comment is shown, the form with
comments writes a longer text.
-/

namespace SamlGate.Canonical

open Xml

def Form.withoutComments (form : Form) : Form :=
  { form with method := { form.method with comments := false } }

section Hiding

variable {form : Form} {subset : Bool} {shown shownToo : Nat → Bool} {surroundings : Surroundings}
  {start : Nat} {beforeRoot : Bool}

/-! ### Two ways of keeping comments out -/

def Hides (shown shownToo : Nat → Bool) (position : Nat) (node : Node) : Prop :=
  shownToo position = (shown position && !node.isComment)

private theorem leafPieces_of_hides {first : Leaf} (hides : Hides shown shownToo start (.leaf first)) :
    (if shownToo start then form.leafPieces first else []) =
      if shown start then form.withoutComments.leafPieces first else [] := by
  rw [hides]
  cases first with
  | text characters =>
      simp [Form.leafPieces, Node.isComment, Leaf.isComment]
  | misc item =>
      by_cases comment : item.isComment = true
      · simp [Form.leafPieces, Form.keeps, Form.withoutComments, Node.isComment, Leaf.isComment, comment]
      · simp [Form.leafPieces, Form.keeps, Form.withoutComments, Node.isComment, Leaf.isComment, comment]

private theorem contentPieces_of_hides {content : Content}
    (hides : content.Throughout (Hides shown shownToo) start) :
    form.contentPieces shownToo surroundings start content =
      form.withoutComments.contentPieces shown surroundings start content := by
  induction content generalizing start surroundings with
  | done =>
      rfl
  | leaf first rest ih =>
      rcases hides.leaf with ⟨here, behind⟩
      rw [Form.contentPieces, Form.contentPieces, leafPieces_of_hides here, ih behind]
  | element tag inner rest ihInner ihRest =>
      rcases hides.element with ⟨here, below, behind⟩
      have same : shownToo start = shown start := by
        rw [here]
        simp [Node.isComment]
      have startTags : form.withoutComments.startTag surroundings tag = form.startTag surroundings tag := rfl
      rw [Form.contentPieces, Form.contentPieces, same, startTags, ihInner below, ihRest behind]

private theorem miscPieces_of_hides {items : List Misc}
    (hides : ∀ index item, items[index]? = some item →
      Hides shown shownToo (start + index) (.leaf (.misc item))) :
    form.miscPieces shownToo beforeRoot start items =
      form.withoutComments.miscPieces shown beforeRoot start items := by
  induction items generalizing start with
  | nil =>
      rfl
  | cons item items ih =>
      have here : shownToo start = (shown start && !item.isComment) := hides 0 item rfl
      have kept : (shownToo start && form.keeps item) = (shown start && form.withoutComments.keeps item) := by
        rw [here]
        cases comment : item.isComment with
        | false =>
            simp [Form.keeps, comment]
        | true =>
            simp [Form.keeps, Form.withoutComments, comment]
      have later := @ih (start + 1) (by
        intro index other atIndex
        rw [Nat.add_right_comm]
        exact hides (index + 1) other atIndex)
      rw [Form.miscPieces, Form.miscPieces, kept, later]

/-- A set of which comments are taken out makes of every form the one without comments. -/
theorem pieces_of_hides {document : Document}
    (hides : ∀ position node, document.nodes[position]? = some node → Hides shown shownToo position node) :
    form.pieces subset shownToo document = form.withoutComments.pieces subset shown document := by
  have before := @miscPieces_of_hides form shown shownToo 1 true document.before (by
    intro index item atIndex
    exact hides _ _ (document.getElem?_nodes_before atIndex))
  have after := @miscPieces_of_hides form shown shownToo (document.rootPosition + document.root.size) false
    document.after (by
      intro index item atIndex
      apply hides
      rw [document.getElem?_nodes_after, atIndex, Option.map_some])
  have inRoot : document.rootContent.Throughout (Hides shown shownToo) document.rootPosition := by
    apply Document.throughout_rootContent
    intro position node atPosition _ _
    exact hides position node atPosition
  unfold Form.pieces
  rw [before, after]
  congr 2
  exact contentPieces_of_hides inRoot

theorem octets_of_hides {document : Document} {set setToo : NodeSet}
    (hides : ∀ position node, document.nodes[position]? = some node →
      Hides (shownBy (some set)) (shownBy (some setToo)) position node) :
    form.octets document (some setToo) = form.withoutComments.octets document (some set) := by
  have pieces := @pieces_of_hides form true _ _ document hides
  unfold Form.octets Form.text
  exact congrArg (fun pieces => Octets.ofText (String.ofList (pieces.flatMap Piece.spelling))) pieces

/-! ### What the comments add -/

private theorem keeps_of_withoutComments {item : Misc} (kept : form.withoutComments.keeps item = true) :
    form.keeps item = true := by
  simp [Form.keeps, Form.withoutComments] at kept
  simp [Form.keeps, kept]

private theorem leafPieces_withoutComments_sublist (first : Leaf) :
    (form.withoutComments.leafPieces first).Sublist (form.leafPieces first) := by
  cases first with
  | text characters =>
      exact .refl _
  | misc item =>
      unfold Form.leafPieces
      dsimp only
      by_cases kept : form.withoutComments.keeps item = true
      · rw [if_pos kept, if_pos (keeps_of_withoutComments kept)]
      · rw [if_neg kept]
        exact List.nil_sublist _

private theorem contentPieces_withoutComments_sublist (content : Content) :
    (form.withoutComments.contentPieces shown surroundings start content).Sublist
      (form.contentPieces shown surroundings start content) := by
  induction content generalizing start surroundings with
  | done =>
      exact .refl _
  | leaf first rest ih =>
      rw [Form.contentPieces, Form.contentPieces]
      apply List.Sublist.append _ ih
      by_cases here : shown start = true
      · rw [if_pos here, if_pos here]
        exact leafPieces_withoutComments_sublist first
      · rw [if_neg here, if_neg here]
  | element tag inner rest ihInner ihRest =>
      have startTags : form.withoutComments.startTag surroundings tag = form.startTag surroundings tag := rfl
      rw [Form.contentPieces, Form.contentPieces, startTags]
      apply List.Sublist.append _ ihRest
      by_cases here : shown start = true
      · rw [if_pos here]
        exact ((ihInner.cons_cons _).append_right _)
      · rw [if_neg here]
        exact ihInner

private theorem miscPieces_withoutComments_sublist (items : List Misc) :
    (form.withoutComments.miscPieces shown beforeRoot start items).Sublist
      (form.miscPieces shown beforeRoot start items) := by
  induction items generalizing start with
  | nil =>
      exact .refl _
  | cons item items ih =>
      rw [Form.miscPieces, Form.miscPieces]
      apply List.Sublist.append _ ih
      by_cases kept : (shown start && form.withoutComments.keeps item) = true
      · rcases Bool.and_eq_true_iff.mp kept with ⟨here, keeps⟩
        have keptToo : (shown start && form.keeps item) = true :=
          Bool.and_eq_true_iff.mpr ⟨here, keeps_of_withoutComments keeps⟩
        rw [if_pos kept, if_pos keptToo]
      · rw [if_neg kept]
        exact List.nil_sublist _

private theorem pieces_withoutComments_sublist (document : Document) :
    (form.withoutComments.pieces subset shown document).Sublist (form.pieces subset shown document) :=
  ((miscPieces_withoutComments_sublist _).append (contentPieces_withoutComments_sublist _)).append
    (miscPieces_withoutComments_sublist _)

def ShownAmong (shown : Nat → Bool) (start : Nat) (nodes : List Node) (node : Node) : Prop :=
  ∃ index, nodes[index]? = some node ∧ shown (start + index) = true

theorem shownAmong_cons_iff {first node : Node} {nodes : List Node} :
    ShownAmong shown start (first :: nodes) node ↔
      first = node ∧ shown start = true ∨ ShownAmong shown (start + 1) nodes node := by
  constructor
  · intro given
    rcases given with ⟨index, atIndex, here⟩
    cases index with
    | zero =>
        exact .inl ⟨Option.some.inj atIndex, here⟩
    | succ index =>
        rw [← Nat.add_assoc, Nat.add_right_comm] at here
        exact .inr ⟨index, atIndex, here⟩
  · intro given
    rcases given with ⟨same, here⟩ | ⟨index, atIndex, here⟩
    · exact ⟨0, congrArg some same, here⟩
    · rw [Nat.add_right_comm, Nat.add_assoc] at here
      exact ⟨index + 1, atIndex, here⟩

theorem shownAmong_append_iff {node : Node} {nodes others : List Node} :
    ShownAmong shown start (nodes ++ others) node ↔
      ShownAmong shown start nodes node ∨ ShownAmong shown (start + nodes.length) others node := by
  induction nodes generalizing start with
  | nil =>
      simp [ShownAmong]
  | cons first nodes ih =>
      rw [List.cons_append, shownAmong_cons_iff, shownAmong_cons_iff, ih, or_assoc, List.length_cons,
        Nat.add_right_comm, Nat.add_assoc]

theorem mem_leafPieces_iff {first : Leaf} {item : Misc} :
    .misc item ∈ form.leafPieces first ↔ form.keeps item = true ∧ first = .misc item := by
  cases first with
  | text characters =>
      simp [Form.leafPieces]
  | misc other =>
      unfold Form.leafPieces
      dsimp only
      by_cases kept : form.keeps other = true
      · rw [if_pos kept, List.mem_singleton, Piece.misc.injEq, Leaf.misc.injEq, eq_comm]
        constructor
        · rintro rfl
          exact ⟨kept, rfl⟩
        · intro both
          exact both.2
      · rw [if_neg kept]
        constructor
        · intro member
          cases member
        · intro given
          rcases given with ⟨keptToo, same⟩
          cases same
          exact absurd keptToo kept

theorem mem_contentPieces_iff {content : Content} {item : Misc} :
    .misc item ∈ form.contentPieces shown surroundings start content ↔
      form.keeps item = true ∧ ShownAmong shown start content.nodes (.leaf (.misc item)) := by
  induction content generalizing start surroundings with
  | done =>
      simp [Form.contentPieces, Content.nodes, ShownAmong]
  | leaf first rest ih =>
      rw [Form.contentPieces, Content.nodes, shownAmong_cons_iff, List.mem_append, ih, and_or_left,
        Node.leaf.injEq]
      refine or_congr ?_ Iff.rfl
      by_cases here : shown start = true
      · rw [if_pos here, mem_leafPieces_iff, and_iff_left here]
      · simp [here]
  | element tag inner rest ihInner ihRest =>
      rw [Form.contentPieces, Content.nodes, shownAmong_cons_iff, shownAmong_append_iff, List.mem_append,
        ihRest, Content.length_nodes]
      simp only [reduceCtorEq, false_and, false_or]
      rw [and_or_left]
      refine or_congr ?_ Iff.rfl
      by_cases here : shown start = true
      · rw [if_pos here,
          ← @ihInner (surroundings.inside tag (some (form.startTag surroundings tag))) (start + 1)]
        simp
      · rw [if_neg here]
        exact ihInner

theorem mem_miscPieces_iff {items : List Misc} {item : Misc} :
    .misc item ∈ form.miscPieces shown beforeRoot start items ↔
      form.keeps item = true ∧
        ShownAmong shown start (items.map fun held => .leaf (.misc held)) (.leaf (.misc item)) := by
  induction items generalizing start with
  | nil =>
      simp [Form.miscPieces, ShownAmong]
  | cons first items ih =>
      rw [Form.miscPieces, List.map_cons, shownAmong_cons_iff, List.mem_append, ih, and_or_left,
        Node.leaf.injEq, Leaf.misc.injEq]
      refine or_congr ?_ Iff.rfl
      have written :
          .misc item ∈ (if beforeRoot then [.misc first, .lineBreak] else [Piece.lineBreak, .misc first]) ↔
            first = item := by
        cases beforeRoot with
        | false =>
            simp [eq_comm]
        | true =>
            simp [eq_comm]
      by_cases kept : (shown start && form.keeps first) = true
      · rcases Bool.and_eq_true_iff.mp kept with ⟨here, keeps⟩
        rw [if_pos kept, written, and_iff_left here]
        constructor
        · rintro rfl
          exact ⟨keeps, rfl⟩
        · intro both
          exact both.2
      · rw [if_neg kept]
        constructor
        · intro member
          cases member
        · intro given
          rcases given with ⟨keeps, same, here⟩
          rw [same, here, keeps] at kept
          exact absurd rfl kept

/-- A comment or an instruction is written exactly where it is shown and the form keeps it. -/
theorem mem_pieces_iff {document : Document} {item : Misc} :
    .misc item ∈ form.pieces subset shown document ↔
      form.keeps item = true ∧ ShownAmong shown 0 document.nodes (.leaf (.misc item)) := by
  have nodes : document.nodes =
      .document document :: (document.before.map (fun item => Node.leaf (.misc item)) ++
        (document.rootContent.nodes ++ document.after.map (fun item => Node.leaf (.misc item)))) := by
    rw [Document.nodes_eq]
    simp [Document.rootContent, Content.nodes]
  have rootAt : 0 + 1 + document.before.length = document.rootPosition := by
    rw [Document.rootPosition]
    omega
  rw [nodes, shownAmong_cons_iff, shownAmong_append_iff, shownAmong_append_iff, List.length_map, rootAt,
    Content.length_nodes, document.size_rootContent]
  simp only [reduceCtorEq, false_and, false_or, and_or_left]
  rw [← @mem_miscPieces_iff _ _ _ true, ← @mem_miscPieces_iff _ _ _ false,
    ← @mem_contentPieces_iff _ _ (.outermost subset)]
  unfold Form.pieces Document.rootContent
  rw [List.mem_append, List.mem_append, or_assoc]

private theorem length_flatMap_lt {pieces fewer : List Piece} {item : Misc} (sublist : fewer.Sublist pieces)
    (member : .misc item ∈ pieces) (dropped : .misc item ∉ fewer) :
    (fewer.flatMap Piece.spelling).length < (pieces.flatMap Piece.spelling).length := by
  have among := sublist.erase (.misc item)
  rw [List.erase_of_not_mem dropped] at among
  have shorter := ((among.map Piece.spelling).flatten).length_le
  rw [← List.flatMap_def, ← List.flatMap_def] at shorter
  have whole := ((List.perm_cons_erase member).flatMap_right Piece.spelling).length_eq
  have marked : 0 < (writtenMisc item).length := by
    cases item with
    | comment text =>
        simp [writtenMisc]
    | instruction target value =>
        simp [writtenMisc]
  rw [List.flatMap_cons, List.length_append, Piece.spelling] at whole
  omega

private theorem length_flatMap_withoutComments_lt {document : Document} {item : Misc}
    (comments : form.method.comments = true) (isComment : item.isComment = true)
    (isShown : ShownAmong shown 0 document.nodes (.leaf (.misc item))) :
    ((form.withoutComments.pieces subset shown document).flatMap Piece.spelling).length <
      ((form.pieces subset shown document).flatMap Piece.spelling).length := by
  apply @length_flatMap_lt _ _ item (pieces_withoutComments_sublist document)
  · exact mem_pieces_iff.mpr ⟨by simp [Form.keeps, comments], isShown⟩
  · intro member
    have kept := (mem_pieces_iff.mp member).1
    simp [Form.keeps, Form.withoutComments, isComment] at kept

private theorem pieces_withoutComments_of_none {document : Document}
    (none : ∀ position node, document.nodes[position]? = some node → shown position = true →
      node.isComment = false) :
    form.withoutComments.pieces subset shown document = form.pieces subset shown document := by
  rw [← @pieces_of_hides _ subset shown shown]
  intro position node atPosition
  unfold Hides
  cases here : shown position with
  | false =>
      rfl
  | true =>
      rw [none position node atPosition here]
      rfl

end Hiding

/-! ### Sets of nodes -/

private theorem exists_comment_of_isComment {node : Node} (isComment : node.isComment = true) :
    ∃ text, node = .leaf (.misc (.comment text)) := by
  cases node with
  | document whole =>
      cases isComment
  | element held =>
      cases isComment
  | leaf held =>
      cases held with
      | text characters =>
          cases isComment
      | misc item =>
          cases item with
          | comment text =>
              exact ⟨text, rfl⟩
          | instruction target value =>
              cases isComment

/-- The forms with and without comments give the same octets of a set exactly where neither writes comments or
the set has none. -/
theorem octets_withoutComments_eq_iff {form : Form} {document : Document} {set : Option NodeSet} :
    form.withoutComments.octets document set = form.octets document set ↔
      form.method.comments = false ∨ ∀ position node, document.nodes[position]? = some node →
        shownBy set position = true → node.isComment = false := by
  constructor
  · intro same
    have sameText := String.ofList_injective (Octets.ofText_inj.mp same)
    cases comments : form.method.comments with
    | false =>
        exact .inl rfl
    | true =>
        right
        intro position node atPosition here
        apply Bool.eq_false_iff.mpr
        intro isComment
        rcases exists_comment_of_isComment isComment with ⟨text, rfl⟩
        have isShown : ShownAmong (shownBy set) 0 document.nodes (.leaf (.misc (.comment text))) :=
          ⟨position, atPosition, by rw [Nat.zero_add, here]⟩
        have shorter := @length_flatMap_withoutComments_lt _ set.isSome _ _ _ comments rfl isShown
        rw [sameText] at shorter
        exact Nat.lt_irrefl _ shorter
  · intro either
    rcases either with plain | none
    · have same : form.withoutComments = form := by
        rcases form with ⟨⟨exclusive, comments⟩, listed⟩
        cases plain
        rfl
      rw [same]
    · unfold Form.octets Form.text
      rw [pieces_withoutComments_of_none none]

theorem octets_treeWithoutComments (form : Form) (document : Document) (site : Site) :
    form.octets document (some (NodeSet.treeWithoutComments document site)) =
      form.withoutComments.octets document (some (NodeSet.tree document site)) := by
  apply octets_of_hides
  intro position node atPosition
  change (NodeSet.treeWithoutComments document site).has position =
    ((NodeSet.tree document site).has position && _)
  rw [NodeSet.treeWithoutComments, NodeSet.tree, NodeSet.has_select, NodeSet.has_select, atPosition]
  rfl

end SamlGate.Canonical
