import SamlGate.Proofs.Canonical.PlainText
import SamlGate.Proofs.Canonical.TakenOver
import SamlGate.Proofs.Canonical.Visible

/-!
Canonical text of one element by itself.

Where only the subtree of an element is shown, without its comments, the canonical text is that of the
element. Nothing is declared around it, so it declares all that it needs, and an inclusive method lets it take
over the `xml` attributes around it. Attributes with a namespace are not part of its sketch, so the text is
read as an element with the same sketch.
-/

namespace SamlGate.Canonical

open Xml

/-! ### Only a subtree is shown -/

section Shown

variable {form : Form} {subset : Bool} {shown : Nat → Bool} {surroundings : Surroundings} {start target : Nat}
  {content : Content} {element : Element}

/-- The text of a sequence of which nothing is shown outside an element is the text of that element, which
nothing around it is held by. -/
theorem exists_contentSpelling_eq (has : content.Has target start element) (here : shown target = true)
    (outside : ∀ position, position < target ∨ target + element.size ≤ position → shown position = false)
    (free : surroundings.held = false) :
    ∃ ancestors, (∀ tag ∈ ancestors, tag ∈ surroundings.ancestors ∨ tag ∈ content.tags) ∧
      contentSpelling form shown surroundings start content =
        contentSpelling form shown ⟨surroundings.subset, surroundings.declared, ancestors, false⟩ target
          (.element element.tag element.inner .done) := by
  -- The elements passed on the way down are not shown: they only become ancestors.
  induction has using Content.Has.induct generalizing surroundings with
  | leaf first rest start has ih =>
      obtain ⟨ancestors, among, spelled⟩ := ih free
      refine ⟨ancestors, among, ?_⟩
      rw [contentSpelling_leaf, if_neg (by simp [outside start (.inl has.after)]), ← spelled]
      rfl
  | here rest =>
      have hiddenRest : Hidden shown (target + 1 + element.inner.size) rest := by
        intro position after before
        apply outside
        simp only [Element.size]
        omega
      refine ⟨surroundings.ancestors, fun _ => .inl, ?_⟩
      have same : surroundings = 
          ⟨surroundings.subset, surroundings.declared, surroundings.ancestors, false⟩ := by
        rw [← free]
      rw [contentSpelling_element here, contentSpelling_element here, ← same,
        contentSpelling_of_hidden hiddenRest]
      rfl
  | inside tag inner rest start has ih =>
      have within := has.stop_le
      have hiddenRest : Hidden shown (start + 1 + inner.size) rest := by
        intro position after before
        apply outside
        omega
      obtain ⟨ancestors, among, spelled⟩ := @ih (surroundings.inside tag none) rfl
      refine ⟨ancestors, ?_, ?_⟩
      · intro outer member
        rcases among outer member with around | below
        · rcases List.mem_cons.mp around with isTag | further
          · exact .inr (isTag ▸ List.mem_cons_self)
          · exact .inl further
        · exact .inr (List.mem_cons_of_mem _ (List.mem_append_left _ below))
      · rw [contentSpelling_hidden_element (outside start (.inl has.after)), spelled,
          contentSpelling_of_hidden hiddenRest, List.append_nil]
        rfl
  | behind tag inner rest start has ih =>
      have after := has.after
      have hiddenInner : Hidden shown (start + 1) inner := by
        intro position _ before
        apply outside
        omega
      obtain ⟨ancestors, among, spelled⟩ := ih free
      refine ⟨ancestors, ?_, ?_⟩
      · intro outer member
        rcases among outer member with around | later
        · exact .inl around
        · exact .inr (List.mem_cons_of_mem _ (List.mem_append_right _ later))
      · rw [contentSpelling_hidden_element (outside start (.inl (by omega))),
          contentSpelling_of_hidden hiddenInner, List.nil_append, spelled]

private theorem contentSpelling_of_child (child : ⟨target, .element element⟩ ∈ content.sites start)
    (outside : ∀ position, position < target ∨ target + element.size ≤ position → shown position = false) :
    contentSpelling form shown surroundings start content =
      contentSpelling form shown surroundings target (.element element.tag element.inner .done) := by
  induction content generalizing start with
  | done =>
      cases child
  | leaf first rest ih =>
      cases child with
      | tail _ later =>
          have after := (Content.getElem?_nodes_of_mem_sites later).1
          rw [contentSpelling_leaf, if_neg (by simp [outside start (.inl after)]), ih later]
          rfl
  | element tag inner rest _ ih =>
      cases child with
      | head =>
          have hiddenRest : Hidden shown (target + 1 + inner.size) rest := by
            intro position after _
            apply outside
            simp only [Element.size]
            omega
          cases here : shown target with
          | true =>
              rw [contentSpelling_element here, contentSpelling_element here,
                contentSpelling_of_hidden hiddenRest]
              rfl
          | false =>
              rw [contentSpelling_hidden_element here, contentSpelling_hidden_element here,
                contentSpelling_of_hidden hiddenRest]
              rfl
      | tail _ later =>
          have after := (Content.getElem?_nodes_of_mem_sites later).1
          simp only at after
          have hiddenInner : Hidden shown (start + 1) inner := by
            intro position _ before
            apply outside
            omega
          rw [contentSpelling_hidden_element (outside start (.inl (by omega))),
            contentSpelling_of_hidden hiddenInner, List.nil_append, ih later]

private theorem contentSpelling_of_hidden_parent {tag : Tag} {inner : Content}
    (child : ⟨target, .element element⟩ ∈ inner.sites (start + 1))
    (outside : ∀ position, position < target ∨ target + element.size ≤ position → shown position = false) :
    contentSpelling form shown surroundings start (.element tag inner .done) =
      contentSpelling form shown (surroundings.inside tag none) target
        (.element element.tag element.inner .done) := by
  have after := (Content.getElem?_nodes_of_mem_sites child).1
  have parentHidden : shown start = false := outside start (.inl after)
  rw [contentSpelling_hidden_element parentHidden, contentSpelling_of_child child outside]
  exact List.append_nil _

private theorem flatMap_pieces_of_outside {document : Document}
    (outside : ∀ position, position < document.rootPosition ∨ document.rootSite.stop ≤ position →
      shown position = false) :
    (form.pieces subset shown document).flatMap Piece.spelling =
      contentSpelling form shown (.outermost subset) document.rootPosition document.rootContent := by
  have nothingBefore : form.miscPieces shown true 1 document.before = [] := by
    apply miscPieces_of_hidden
    intro index within
    apply outside
    rw [Document.rootPosition]
    omega
  have nothingAfter :
      form.miscPieces shown false (document.rootPosition + document.root.size) document.after = [] := by
    apply miscPieces_of_hidden
    intro index _
    exact outside _ (.inr (Nat.le_add_right _ _))
  rw [flatMap_pieces, nothingBefore, nothingAfter, List.flatMap_nil, List.nil_append, List.append_nil]

/-- The text of a document of which nothing is shown outside an element is the text of that element. -/
theorem exists_flatMap_pieces_eq {document : Document}
    (has : document.rootContent.Has target document.rootPosition element) (here : shown target = true)
    (outside : ∀ position, position < target ∨ target + element.size ≤ position → shown position = false) :
    ∃ ancestors, (∀ tag ∈ ancestors, tag ∈ document.rootContent.tags) ∧
      (form.pieces subset shown document).flatMap Piece.spelling =
        contentSpelling form shown ⟨subset, [], ancestors, false⟩ target
          (.element element.tag element.inner .done) := by
  have after := has.after
  have stop := has.stop_le
  rw [document.size_rootContent] at stop
  have outsideRoot (position : Nat)
      (beyond : position < document.rootPosition ∨ document.rootSite.stop ≤ position) :
      shown position = false := by
    apply outside
    simp only [Document.rootSite, Site.stop, Node.size] at beyond
    omega
  obtain ⟨ancestors, among, spelled⟩ :=
    @exists_contentSpelling_eq form shown (.outermost subset) _ _ _ _ has here outside rfl
  refine ⟨ancestors, ?_, ?_⟩
  · intro outer member
    rcases among outer member with outermost | inRoot
    · cases outermost
    · exact inRoot
  · rw [flatMap_pieces_of_outside outsideRoot, spelled]
    rfl

end Shown

/-! ### The element is read again -/

/-- The text is that of one element, and any reader sees the same of it as of an element with this sketch. -/
def SpellsSketch (text : List Char) (sketch : Sketch) : Prop :=
  ∃ last other, Absorbs .empty text last ∧ last.root = some other ∧ other.sketch = sketch

theorem SpellsSketch.unique {text : List Char} {sketch other : Sketch} (spells : SpellsSketch text sketch)
    (spellsToo : SpellsSketch text other) : sketch = other := by
  obtain ⟨last, root, absorbs, isRoot, same⟩ := spells
  obtain ⟨lastToo, rootToo, absorbsToo, isRootToo, sameToo⟩ := spellsToo
  have sameLast := absorbs.deterministic absorbsToo
  subst sameLast
  rw [isRoot] at isRootToo
  cases isRootToo
  exact same.symm.trans sameToo

private theorem spellsSketch_element {form : Form} {subset : Bool} {shown : Nat → Bool}
    {ancestors : List Tag} {target : Nat}
    {element : Element} (valid : element.Valid) (conforms : ∀ tag ∈ element.tags, tag.scope.Conforms)
    (around : ∀ outer ∈ ancestors, outer.Valid) (here : shown target = true)
    (shows : Shows shown (fun _ => False) (target + 1) element.inner) :
    SpellsSketch
      (contentSpelling form shown ⟨subset, [], ancestors, false⟩ target (.element element.tag element.inner .done))
      element.sketch := by
  obtain ⟨tag, inner⟩ := element
  obtain ⟨tagConforms, innerConforms⟩ := List.forall_mem_cons.mp conforms
  obtain ⟨hereditary, text, elements⟩ := visible_of_shows shows (fun _ _ _ => not_false)
  have wholeValid := @valid_completed ⟨subset, [], ancestors, false⟩ tag form valid.tag around
  have wholeConforms : (completed form ⟨subset, [], ancestors, false⟩ tag).scope.Conforms := by
    rw [completed_scope]
    exact tagConforms
  have agrees : Agrees (rescoped form [] [] (completed form ⟨subset, [], ancestors, false⟩ tag))
      (form.declarations [] (completed form ⟨subset, [], ancestors, false⟩ tag) ++ []) :=
    Agrees.inside ⟨fun _ => rfl, .nil⟩ wholeValid
  have innerFaithful : ∀ tag ∈ inner.tags, Faithful tag :=
    fun tag member => faithful_of_conforms (innerConforms tag member)
  have alike := @alike_restatedTag form [] [] _ wholeValid (faithful_of_conforms wholeConforms) (fun _ => rfl)
  obtain ⟨sameText, sameElements, _⟩ :=
    @readers_restated form shown (target + 1) _ _ _ valid.inner innerFaithful agrees
  -- The start tag is that of the completed tag, so the element is read as one that takes nothing over.
  have readsInner := @readsInside_content form shown
    (Surroundings.inside ⟨subset, [], ancestors, false⟩ tag (some (form.startTag ⟨subset, [], ancestors, false⟩ tag)))
    (target + 1) inner valid.inner innerFaithful hereditary (.inl (takesOver_of_held rfl form))
  have declaredInside :
      (Surroundings.inside ⟨subset, [], ancestors, false⟩ tag
          (some (form.startTag ⟨subset, [], ancestors, false⟩ tag))).declared =
        form.declarations [] (completed form ⟨subset, [], ancestors, false⟩ tag) ++ [] := by
    rw [declarations_completed]
    rfl
  rw [declaredInside] at readsInner
  have reads := @reads_element form ⟨subset, [], ancestors, true⟩ _ _ _ .empty .empty _ [] wholeValid
    (faithful_of_conforms wholeConforms) (.inl (takesOver_of_held rfl form)) (by simp [Permitted]) rfl
    ⟨fun _ => rfl, .nil⟩ readsInner rfl
  have sketch := @sketch_eq_of_alike _ ⟨_, _⟩ _ wholeValid alike sameText sameElements
  refine ⟨{ Assembly.empty with root := some _ }, _, ?_, rfl, sketch.trans ?_⟩
  rotate_left
  · unfold Element.sketch
    rw [attribute?_completed, completed_name, completed_namespaceUri, text, elements]
  · have spelling : contentSpelling form shown ⟨subset, [], ancestors, false⟩ target (.element tag inner .done) =
        elementSpelling form ⟨subset, [], ancestors, true⟩ (completed form ⟨subset, [], ancestors, false⟩ tag)
          (contentSpelling form shown
            (Surroundings.inside ⟨subset, [], ancestors, false⟩ tag
              (some (form.startTag ⟨subset, [], ancestors, false⟩ tag))) (target + 1) inner) := by
      have sameTag := startTag_completed form ⟨subset, [], ancestors, false⟩ tag
      rw [contentSpelling_element here, elementSpelling, elementSpelling, sameTag, completed_name]
      simp [contentSpelling, Form.contentPieces]
    have absorbs : Absorbs .empty _ _ := reads [] _ (.done _)
    rw [List.append_nil] at absorbs
    rw [spelling]
    exact absorbs

/-! ### Octets of one element -/

def ShowsOnly (shown : Nat → Bool) (site : Site) (position : Nat) (node : Node) : Prop :=
  shown position = (site.position ≤ position && position < site.stop && !node.isComment)

private theorem throughout_treeWithoutComments (document : Document) (site : Site) :
    document.rootContent.Throughout
      (ShowsOnly (shownBy (some (NodeSet.treeWithoutComments document site))) site)
      document.rootPosition := by
  apply Document.throughout_rootContent
  intro position node atPosition _ _
  change (NodeSet.treeWithoutComments document site).has position = _
  rw [NodeSet.treeWithoutComments, NodeSet.has_select, atPosition]
  rfl

private theorem not_shownBy_treeWithoutComments {document : Document} {site : Site} {position : Nat}
    (outside : position < site.position ∨ site.stop ≤ position) :
    shownBy (some (NodeSet.treeWithoutComments document site)) position = false := by
  change (NodeSet.treeWithoutComments document site).has position = false
  rw [NodeSet.treeWithoutComments, NodeSet.has_select]
  cases document.nodes[position]? with
  | none => rfl
  | some node =>
      rcases outside with before | after
      · simp [Nat.not_le.mpr before]
      · simp [Nat.not_lt.mpr after]

private theorem shows_of_showsOnly {shown : Nat → Bool} {position : Nat} {element : Element}
    (shows : element.inner.Throughout (ShowsOnly shown ⟨position, .element element⟩) (position + 1)) :
    Shows shown (fun _ => False) (position + 1) element.inner := by
  intro index node atIndex notComment _
  have within := (List.getElem?_eq_some_iff.mp atIndex).1
  rw [Content.length_nodes] at within
  rw [shows index node atIndex, notComment]
  simp only [Site.stop, Node.size, Element.size, Bool.not_false, Bool.and_true, Bool.and_eq_true]
  constructor
  · exact decide_eq_true (by omega)
  · exact decide_eq_true (by omega)

/-- A document of which only an element is shown is read as an element with the sketch of that one. -/
theorem spellsSketch_pieces {document : Document} {position : Nat} {element : Element} {subset : Bool}
    {shown : Nat → Bool} (form : Form) (valid : document.Valid) (conforms : ∀ tag ∈ document.root.tags, tag.scope.Conforms)
    (has : document.rootContent.Has position document.rootPosition element)
    (shows : document.rootContent.Throughout (ShowsOnly shown ⟨position, .element element⟩)
      document.rootPosition)
    (outside : ∀ there, there < position ∨ position + element.size ≤ there → shown there = false) :
    SpellsSketch ((form.pieces subset shown document).flatMap Piece.spelling) element.sketch := by
  obtain ⟨here, inside⟩ := has.throughout shows
  have isShown : shown position = true := by
    rw [here]
    simp [Site.stop, Node.size, Element.size, Node.isComment]
  have elementConforms : ∀ tag ∈ element.tags, tag.scope.Conforms := by
    intro tag member
    apply conforms
    rw [← document.tags_rootContent]
    exact has.subset.1 member
  obtain ⟨ancestors, among, spelled⟩ := @exists_flatMap_pieces_eq form _ _ _ _ _ has isShown outside
  have around : ∀ outer ∈ ancestors, outer.Valid := fun outer member =>
    valid.rootContent.tags outer (among outer member)
  rw [spelled]
  exact spellsSketch_element (has.valid valid.rootContent) elementConforms around isShown
    (shows_of_showsOnly inside)

theorem spellsSketch_text {document : Document} {position : Nat} {element : Element} (form : Form)
    (valid : document.Valid) (conforms : ∀ tag ∈ document.root.tags, tag.scope.Conforms)
    (has : document.rootContent.Has position document.rootPosition element) :
    SpellsSketch
      (form.text document
        (some (NodeSet.treeWithoutComments document ⟨position, .element element⟩))).toList
      element.sketch := by
  rw [Form.text, String.toList_ofList]
  apply spellsSketch_pieces form valid conforms has
  · exact throughout_treeWithoutComments document ⟨position, .element element⟩
  · intro there outside
    exact not_shownBy_treeWithoutComments outside

/-- The text of an element two levels below the document shows of the document no more than the tags around it,
and nothing of its own position. -/
theorem text_of_grandchild {document : Document} {position target : Nat} {parent element : Element}
    (child : ⟨position, .element parent⟩ ∈ document.rootSite.children)
    (grandchild : ⟨target, .element element⟩ ∈ (⟨position, .element parent⟩ : Site).children) (form : Form) :
    form.text document (some (NodeSet.treeWithoutComments document ⟨target, .element element⟩)) =
      String.ofList (form.plainText ⟨true, [], [parent.tag, document.root.tag], false⟩
        (.element element.tag element.inner .done)) := by
  have aboveParent := Content.getElem?_nodes_of_mem_sites child
  have aboveElement := Content.getElem?_nodes_of_mem_sites grandchild
  simp only [Document.rootSite, Site.stop, Node.size, Element.size] at aboveParent aboveElement
  have outside (there : Nat) (beyond : there < target ∨ target + element.size ≤ there) :
      shownBy (some (NodeSet.treeWithoutComments document ⟨target, .element element⟩)) there = false :=
    not_shownBy_treeWithoutComments beyond
  have shows := throughout_treeWithoutComments document ⟨target, .element element⟩
  have inParent := ((Content.has_of_mem_sites child).throughout (Content.Throughout.element shows).2.1).2
  have inElement := (Content.has_of_mem_sites grandchild).throughout inParent
  have showsElement : (Content.element element.tag element.inner .done).Throughout
      (fun there node => shownBy (some (NodeSet.treeWithoutComments document ⟨target, .element element⟩)) there =
        !node.isComment) target := by
    refine (Content.Throughout.of_element inElement.1 inElement.2).imp ?_
    intro there node after before showsNode
    have within : there < target + element.size := by
      simpa [Content.size, Element.size] using before
    rw [showsNode]
    simp [after, Site.stop, Node.size, within]
  have outsideRoot (there : Nat)
      (beyond : there < document.rootPosition ∨ document.rootSite.stop ≤ there) :
      shownBy (some (NodeSet.treeWithoutComments document ⟨target, .element element⟩)) there = false := by
    apply outside
    simp only [Document.rootSite, Site.stop, Node.size, Element.size] at beyond ⊢
    omega
  have outsideParent (there : Nat) (beyond : there < position ∨ position + parent.size ≤ there) :
      shownBy (some (NodeSet.treeWithoutComments document ⟨target, .element element⟩)) there = false := by
    apply outside
    simp only [Element.size] at beyond ⊢
    omega
  have inRoot : ⟨position, .element parent⟩ ∈ document.root.inner.sites (document.rootPosition + 1) := child
  have below : ⟨target, .element element⟩ ∈ parent.inner.sites (position + 1) := grandchild
  unfold Form.text
  rw [flatMap_pieces_of_outside outsideRoot, Document.rootContent,
    contentSpelling_of_hidden_parent inRoot outsideParent, contentSpelling_of_hidden_parent below outside,
    contentSpelling_eq_plainText showsElement]
  rfl

end SamlGate.Canonical
