import SamlGate.Proofs.Canonical.PlainText
import SamlGate.Proofs.Signature.Coverage
import SamlGate.Proofs.Xml.Deletion

/-!
Taking out a signature is the same as deleting it.

A signer digests a request before the signature is put in, a verifier when it is there. The octets are the
same, because nothing in canonical text tells where the nodes that are not shown were: they write nothing,
they declare nothing for what is around them, and the texts beside them are written without a mark between.
-/

namespace SamlGate.Canonical

open Xml

/-! ### One element left out -/

private theorem plainText_joined (form : Form) (surroundings : Surroundings) (first : Leaf)
    (rest : Content) :
    form.plainText surroundings (.joined first rest) =
      form.leafText first ++ form.plainText surroundings rest := by
  unfold Content.joined
  split
  · simp [Form.plainText, Form.leafText, Leaf.isComment, Form.leafPieces, Piece.spelling, escaped_append]
  · rfl

section Sequences

variable {form : Form} {shown : Nat → Bool} {surroundings : Surroundings} {start : Nat}

def ShowsBut (shown : Nat → Bool) (site : Site) (position : Nat) (node : Node) : Prop :=
  shown position = (!node.isComment && !(site.position ≤ position && position < site.stop))

private theorem showsBut_iff_of_before {site : Site} {position : Nat} {node : Node}
    (before : position < site.position) :
    ShowsBut shown site position node ↔ shown position = !node.isComment := by
  simp [ShowsBut, Nat.not_le.mpr before]

private theorem showsBut_iff_of_after {site : Site} {position : Nat} {node : Node}
    (after : site.stop ≤ position) :
    ShowsBut shown site position node ↔ shown position = !node.isComment := by
  simp [ShowsBut, Nat.not_lt.mpr after]

private theorem contentSpelling_eq_plainText_of_beside {content : Content} {site : Site}
    (shows : content.Throughout (ShowsBut shown site) start)
    (beside : start + content.size ≤ site.position ∨ site.stop ≤ start) :
    contentSpelling form shown surroundings start content = form.plainText surroundings content := by
  apply contentSpelling_eq_plainText
  refine shows.imp ?_
  intro position node after before showsNode
  rcases beside with left | right
  · exact (showsBut_iff_of_before (Nat.lt_of_lt_of_le before left)).mp showsNode
  · exact (showsBut_iff_of_after (Nat.le_trans right after)).mp showsNode

/-- An element that is not shown, with all that is below it, leaves the text of the sequence without it. -/
theorem contentSpelling_eq_plainText_without {content : Content} {target : Nat} {element : Element}
    (has : content.Has target start element)
    (shows : content.Throughout (ShowsBut shown ⟨target, .element element⟩) start) :
    contentSpelling form shown surroundings start content =
      form.plainText surroundings (content.without target start) := by
  have stop : (⟨target, .element element⟩ : Site).stop = target + element.size := rfl
  -- A start tag depends only on what is around its element, so deleting something inside leaves it.
  induction has using Content.Has.induct generalizing surroundings with
  | leaf first rest start has ih =>
      obtain ⟨here, showsRest⟩ := shows.leaf
      have spelled := @leafText_eq form _ _ ((showsBut_iff_of_before has.after).mp here)
      rw [contentSpelling_leaf, spelled, ih showsRest, Content.without]
      split
      · rw [plainText_joined]
      · rw [Form.plainText]
  | here rest =>
      obtain ⟨here, showsInner, showsRest⟩ := shows.element
      simp only [Element.size] at stop
      have missing {position : Nat} {node : Node} (from_ : target ≤ position)
          (below : position < target + 1 + element.inner.size)
          (showsNode : ShowsBut shown ⟨target, .element element⟩ position node) :
          shown position = false := by
        rw [showsNode, stop, decide_eq_true from_, decide_eq_true (by omega)]
        simp
      have hidden : Hidden shown (target + 1) element.inner := by
        apply hidden_of_throughout
        refine showsInner.imp ?_
        intro position node after before showsNode
        exact missing (by omega) before showsNode
      rw [contentSpelling_hidden_element (missing (Nat.le_refl _) (by omega) here),
        contentSpelling_of_hidden hidden, List.nil_append, Content.without, if_pos rfl]
      exact contentSpelling_eq_plainText_of_beside showsRest (.inr (by omega))
  | inside tag inner rest start has ih =>
      obtain ⟨here, showsInner, showsRest⟩ := shows.element
      have within := has.stop_le
      rw [contentSpelling_element ((showsBut_iff_of_before has.after).mp here), ih showsInner,
        Content.without_of_inner has, Form.plainText,
        contentSpelling_eq_plainText_of_beside showsRest (.inr (by omega))]
  | behind tag inner rest start has ih =>
      obtain ⟨here, showsInner, showsRest⟩ := shows.element
      have after := has.after
      have before : start < target := by
        omega
      rw [contentSpelling_element ((showsBut_iff_of_before before).mp here), ih showsRest,
        Content.without_of_rest has, Form.plainText,
        contentSpelling_eq_plainText_of_beside showsInner (.inl after)]

end Sequences

end SamlGate.Canonical

namespace SamlGate.Signature

open Xml Canonical

/-! ### What is selected -/

private theorem has_selected_before {document : Document} {uri : String} {index : Nat} {item : Misc}
    (atIndex : document.before[index]? = some item) :
    (selected document uri).has (1 + index) = (decide (uri = "") && !item.isComment) := by
  have within := (List.getElem?_eq_some_iff.mp atIndex).1
  unfold selected
  split
  · rename_i empty
    rw [NodeSet.allWithoutComments, NodeSet.treeWithoutComments, NodeSet.has_select,
      document.getElem?_nodes_before atIndex]
    have inside : 1 + index < document.size := by
      simp only [Document.size]
      omega
    simp [Document.site, Site.stop, Node.size, Node.isComment, Leaf.isComment, inside, empty]
  · rename_i named
    have outside : ¬ document.rootPosition ≤ 1 + index := by
      rw [Document.rootPosition]
      omega
    rw [NodeSet.treeWithoutComments, NodeSet.has_select, document.getElem?_nodes_before atIndex]
    simp [Document.rootSite, outside, named]

private theorem has_selected_after {document : Document} {uri : String} {index : Nat} {item : Misc}
    (atIndex : document.after[index]? = some item) :
    (selected document uri).has (document.rootPosition + document.root.size + index) =
      (decide (uri = "") && !item.isComment) := by
  have within := (List.getElem?_eq_some_iff.mp atIndex).1
  have atPosition := document.getElem?_nodes_after index
  rw [atIndex, Option.map_some] at atPosition
  unfold selected
  split
  · rename_i empty
    rw [NodeSet.allWithoutComments, NodeSet.treeWithoutComments, NodeSet.has_select, atPosition]
    have inside : document.rootPosition + document.root.size + index < document.size := by
      simp only [Document.size, Document.rootPosition]
      omega
    simp [Document.site, Site.stop, Node.size, Node.isComment, Leaf.isComment, inside, empty]
  · rename_i named
    rw [NodeSet.treeWithoutComments, NodeSet.has_select, atPosition]
    have outside : ¬ document.rootPosition + document.root.size + index < document.rootSite.stop :=
      Nat.not_lt.mpr (Nat.le_add_right _ _)
    simp [outside, named]

private theorem throughout_selected (document : Document) (uri : String) :
    document.rootContent.Throughout
      (fun position node => shownBy (some (selected document uri)) position = !node.isComment)
      document.rootPosition := by
  apply Document.throughout_rootContent
  intro position node atPosition after before
  exact has_selected atPosition after before

private theorem has_remove_of_before {set : NodeSet} {site : Site} {position : Nat}
    (before : position < site.position) : (set.remove site).has position = set.has position := by
  simp [NodeSet.has_remove, Nat.not_le.mpr before]

private theorem has_remove_of_after {set : NodeSet} {site : Site} {position : Nat}
    (after : site.stop ≤ position) : (set.remove site).has position = set.has position := by
  simp [NodeSet.has_remove, Nat.not_lt.mpr after]

/-! ### The same octets -/

theorem text_remove_eq_text_without {document : Document} {position : Nat} {element : Element}
    (has : document.rootContent.Has position document.rootPosition element)
    (notRoot : position ≠ document.rootPosition) (form : Form) (uri : String) :
    form.text document (some ((selected document uri).remove ⟨position, .element element⟩)) =
      form.text (document.without position) (some (selected (document.without position) uri)) := by
  have stop := has.stop_le
  rw [document.size_rootContent] at stop
  have shows : document.rootContent.Throughout
      (ShowsBut (shownBy (some ((selected document uri).remove ⟨position, .element element⟩)))
        ⟨position, .element element⟩) document.rootPosition := by
    refine (throughout_selected document uri).imp ?_
    intro below node _ _ isSelected
    rw [ShowsBut, ← isSelected]
    exact NodeSet.has_remove _ _ _
  have around (items : List Misc) (beforeRoot : Bool) (start startToo : Nat)
      (same : ∀ index item, items[index]? = some item →
        ((selected document uri).remove ⟨position, .element element⟩).has (start + index) =
          (selected (document.without position) uri).has (startToo + index)) :
      form.miscPieces (shownBy (some ((selected document uri).remove ⟨position, .element element⟩)))
          beforeRoot start items =
        form.miscPieces (shownBy (some (selected (document.without position) uri))) beforeRoot startToo
          items :=
    miscPieces_congr same
  unfold Form.text
  rw [flatMap_pieces, flatMap_pieces, contentSpelling_eq_plainText_without has shows,
    contentSpelling_eq_plainText (throughout_selected (document.without position) uri),
    Document.rootContent_without has notRoot]
  congr 2
  · rw [around document.before true 1 1]
    · rfl
    intro index item atIndex
    have within := (List.getElem?_eq_some_iff.mp atIndex).1
    have before : 1 + index < document.rootPosition := by
      rw [Document.rootPosition]
      omega
    rw [has_remove_of_before (Nat.lt_of_lt_of_le before has.after), has_selected_before atIndex]
    exact (@has_selected_before (document.without position) uri _ _ atIndex).symm
  · congr 1
    rw [around document.after false _
      ((document.without position).rootPosition + (document.without position).root.size)]
    · rfl
    intro index item atIndex
    rw [has_remove_of_after, has_selected_after atIndex]
    · exact (@has_selected_after (document.without position) uri _ _ atIndex).symm
    · exact Nat.le_trans stop (Nat.le_add_right _ _)

/-- A signature that is taken out of the nodes of a document leaves the octets of the document that it was
deleted from, whichever canonicalization follows and also if none does. -/
theorem applyAll_withoutSignature_eq_without {document : Document} {position : Nat} {element : Element}
    (stands : document.site? position = some ⟨position, .element element⟩)
    (notRoot : position ≠ document.rootPosition) (form : Form) (uri : String) :
    applyAll [.withoutSignature position, .canonical form] (.nodes document (selected document uri)) =
        .ok (.octets (form.octets (document.without position)
          (some (selected (document.without position) uri)))) ∧
      ∃ left, applyAll [.withoutSignature position] (.nodes document (selected document uri)) = .ok left ∧
        left.toOctets = Form.octets ⟨Method.default, []⟩ (document.without position)
          (some (selected (document.without position) uri)) := by
  have has := Document.has_of_site? stands
  have removes : (Transform.withoutSignature position).apply
      (.nodes document (selected document uri)) =
        .ok (.nodes document ((selected document uri).remove ⟨position, .element element⟩)) :=
    apply_withoutSignature_eq_ok_iff.mpr ⟨document, _, _, rfl, stands, rfl⟩
  have sameOctets (form : Form) :
      form.octets document (some ((selected document uri).remove ⟨position, .element element⟩)) =
        form.octets (document.without position)
          (some (selected (document.without position) uri)) := by
    rw [Form.octets, text_remove_eq_text_without has notRoot form uri, Form.octets]
  constructor
  · rw [← sameOctets form]
    exact applyAll_cons_eq_ok_iff.mpr ⟨_, removes, rfl⟩
  · exact ⟨_, applyAll_cons_eq_ok_iff.mpr ⟨_, removes, rfl⟩, sameOctets _⟩

/-- A document with comments around it and an element between two texts. -/
def interrupted : Document where
  before := [.comment "c"]
  root :=
    { tag := ⟨⟨"", "r"⟩, none, [], []⟩
      inner :=
        .leaf (.text "a")
          (.element ⟨⟨"", "s"⟩, none, [], []⟩ (.leaf (.text "x") .done) (.leaf (.text "b") .done)) }
  after := [.comment "d"]

theorem applyAll_withoutSignature_eq_without_interrupted :
    (interrupted.without 4).root.inner = .leaf (.text "ab") .done ∧
      applyAll [.withoutSignature 4, .canonical ⟨Method.default, []⟩]
          (.nodes interrupted (selected interrupted "")) =
        .ok (.octets (Form.octets ⟨Method.default, []⟩ (interrupted.without 4)
          (some (selected (interrupted.without 4) "")))) ∧
      Form.text ⟨Method.default, []⟩ (interrupted.without 4)
          (some (selected (interrupted.without 4) "")) = "<r>ab</r>" := by
  have stands : interrupted.site? 4 =
      some ⟨4, .element ⟨⟨⟨"", "s"⟩, none, [], []⟩, .leaf (.text "x") .done⟩⟩ :=
    rfl
  exact ⟨rfl, (applyAll_withoutSignature_eq_without stands (by decide) _ "").1, rfl⟩

end SamlGate.Signature
