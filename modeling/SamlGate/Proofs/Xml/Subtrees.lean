import SamlGate.Proofs.Xml.Content
import SamlGate.Proofs.Xml.Sites

/-!
Elements within a sequence of nodes.

A position of a sequence belongs to a leaf, to an element, or to something below an element. What stands at
a position is followed down the sequence by these cases, and the subtree of an element that is found that way
fills the positions behind it.
-/

namespace SamlGate.Xml

/-! ### Everything in a sequence -/

/-- Something holds of every node of a sequence that begins at `start`, and of its position. -/
def Content.Throughout (holds : Nat → Node → Prop) (start : Nat) (content : Content) : Prop :=
  ∀ index node, content.nodes[index]? = some node → holds (start + index) node

section Throughout

variable {holds holdsToo : Nat → Node → Prop} {start : Nat}

theorem Content.Throughout.leaf {first : Leaf} {rest : Content}
    (throughout : (Content.leaf first rest).Throughout holds start) :
    holds start (.leaf first) ∧ rest.Throughout holds (start + 1) := by
  constructor
  · exact throughout 0 _ rfl
  · intro index node atIndex
    rw [Nat.add_right_comm]
    exact throughout (index + 1) node atIndex

theorem Content.Throughout.element {tag : Tag} {inner rest : Content}
    (throughout : (Content.element tag inner rest).Throughout holds start) :
    holds start (.element ⟨tag, inner⟩) ∧ inner.Throughout holds (start + 1) ∧
      rest.Throughout holds (start + 1 + inner.size) := by
  refine ⟨throughout 0 _ rfl, ?_, ?_⟩
  · intro index node atIndex
    have within := (List.getElem?_eq_some_iff.mp atIndex).1
    rw [Nat.add_right_comm]
    apply throughout (index + 1) node
    rw [Content.nodes, List.getElem?_cons_succ, List.getElem?_append_left within]
    exact atIndex
  · intro index node atIndex
    rw [show start + 1 + inner.size + index = start + (inner.size + index + 1) by omega]
    apply throughout (inner.size + index + 1) node
    rw [Content.nodes, List.getElem?_cons_succ, List.getElem?_append_right (by simp)]
    simpa using atIndex

theorem Content.Throughout.of_element {tag : Tag} {inner : Content}
    (here : holds start (.element ⟨tag, inner⟩)) (below : inner.Throughout holds (start + 1)) :
    (Content.element tag inner .done).Throughout holds start := by
  intro index node atIndex
  cases index with
  | zero =>
      cases atIndex
      exact here
  | succ index =>
      rw [show start + (index + 1) = start + 1 + index by omega]
      apply below index node
      simpa [Content.nodes] using atIndex

theorem Content.Throughout.imp {content : Content} (throughout : content.Throughout holds start)
    (implies : ∀ position node, start ≤ position → position < start + content.size →
      holds position node → holdsToo position node) :
    content.Throughout holdsToo start := by
  intro index node atIndex
  have within := (List.getElem?_eq_some_iff.mp atIndex).1
  rw [Content.length_nodes] at within
  exact implies _ _ (Nat.le_add_right _ _) (by omega) (throughout index node atIndex)

end Throughout

/-! ### An element in a sequence -/

/-- The element stands at a position of a sequence that begins at `start`. -/
structure Content.Has (content : Content) (target start : Nat) (element : Element) : Prop where
  after : start ≤ target
  found : content.nodes[target - start]? = some (.element element)

section Has

variable {first : Leaf} {tag : Tag} {inner rest content : Content} {target start : Nat} {element : Element}

theorem Content.not_has_done : ¬ Content.done.Has target start element := by
  intro has
  cases has.found

theorem Content.has_leaf_iff :
    (Content.leaf first rest).Has target start element ↔ rest.Has target (start + 1) element := by
  constructor
  · intro has
    obtain ⟨after, found⟩ := has
    cases offset : target - start with
    | zero =>
        rw [offset] at found
        cases found
    | succ index =>
        rw [offset] at found
        refine ⟨by omega, ?_⟩
        rw [show target - (start + 1) = index by omega]
        exact found
  · intro has
    obtain ⟨after, found⟩ := has
    refine ⟨by omega, ?_⟩
    rw [show target - start = target - (start + 1) + 1 by omega]
    exact found

theorem Content.has_element_iff :
    (Content.element tag inner rest).Has target start element ↔
      (target = start ∧ element = ⟨tag, inner⟩) ∨ inner.Has target (start + 1) element ∨
        rest.Has target (start + 1 + inner.size) element := by
  constructor
  · intro has
    obtain ⟨after, found⟩ := has
    cases offset : target - start with
    | zero =>
        rw [offset] at found
        cases found
        exact .inl ⟨by omega, rfl⟩
    | succ index =>
        rw [offset, Content.nodes, List.getElem?_cons_succ] at found
        by_cases within : index < inner.size
        · rw [List.getElem?_append_left (by simpa using within)] at found
          refine .inr (.inl ⟨by omega, ?_⟩)
          rw [show target - (start + 1) = index by omega]
          exact found
        · rw [List.getElem?_append_right (by simpa using within), Content.length_nodes] at found
          refine .inr (.inr ⟨by omega, ?_⟩)
          rw [show target - (start + 1 + inner.size) = index - inner.size by omega]
          exact found
  · intro has
    rcases has with ⟨here, same⟩ | ⟨after, found⟩ | ⟨after, found⟩
    · subst here same
      exact ⟨Nat.le_refl _, by simp [Content.nodes]⟩
    · have within := (List.getElem?_eq_some_iff.mp found).1
      refine ⟨by omega, ?_⟩
      rw [show target - start = target - (start + 1) + 1 by omega, Content.nodes,
        List.getElem?_cons_succ, List.getElem?_append_left within]
      exact found
    · refine ⟨by omega, ?_⟩
      rw [show target - start = inner.size + (target - (start + 1 + inner.size)) + 1 by omega,
        Content.nodes, List.getElem?_cons_succ, List.getElem?_append_right (by simp)]
      simpa using found

/-- An element that a sequence has is reached past leaves, into elements and past elements. -/
theorem Content.Has.induct {target : Nat} {element : Element}
    {motive : (content : Content) → (start : Nat) → content.Has target start element → Prop}
    (leaf : ∀ first rest start (has : rest.Has target (start + 1) element),
      motive rest (start + 1) has → motive (.leaf first rest) start (has_leaf_iff.mpr has))
    (here : ∀ rest, motive (.element element.tag element.inner rest) target
      (has_element_iff.mpr (.inl ⟨rfl, rfl⟩)))
    (inside : ∀ tag inner rest start (has : inner.Has target (start + 1) element),
      motive inner (start + 1) has →
        motive (.element tag inner rest) start (has_element_iff.mpr (.inr (.inl has))))
    (behind : ∀ tag inner rest start (has : rest.Has target (start + 1 + inner.size) element),
      motive rest (start + 1 + inner.size) has →
        motive (.element tag inner rest) start (has_element_iff.mpr (.inr (.inr has))))
    {content : Content} {start : Nat} (has : content.Has target start element) :
    motive content start has := by
  induction content generalizing start with
  | done =>
      exact absurd has not_has_done
  | leaf first rest ih =>
      exact leaf first rest start _ (ih (has_leaf_iff.mp has))
  | element tag inner rest ihInner ihRest =>
      rcases has_element_iff.mp has with ⟨same, isFirst⟩ | below | after
      · subst same isFirst
        exact here rest
      · exact inside tag inner rest start below (ihInner below)
      · exact behind tag inner rest start after (ihRest after)

theorem Content.Has.stop_le (has : content.Has target start element) :
    target + element.size ≤ start + content.size := by
  induction has using Content.Has.induct with
  | leaf first rest start has ih =>
      simp only [Content.size]
      omega
  | here rest =>
      simp only [Content.size, Element.size]
      omega
  | inside tag inner rest start has ih =>
      simp only [Content.size]
      omega
  | behind tag inner rest start has ih =>
      simp only [Content.size]
      omega

theorem Content.Has.lt_stop (has : content.Has target start element) : target < start + content.size := by
  have inside := has.stop_le
  simp only [Element.size] at inside
  omega

theorem Content.Has.below {deeper : Element} {position : Nat} (has : content.Has target start element)
    (hasToo : element.inner.Has position (target + 1) deeper) : content.Has position start deeper := by
  induction has using Content.Has.induct with
  | leaf first rest start has ih =>
      exact Content.has_leaf_iff.mpr ih
  | here rest =>
      exact Content.has_element_iff.mpr (.inr (.inl hasToo))
  | inside tag inner rest start has ih =>
      exact Content.has_element_iff.mpr (.inr (.inl ih))
  | behind tag inner rest start has ih =>
      exact Content.has_element_iff.mpr (.inr (.inr ih))

/-- What is true of every node and its position is true of an element and of what is in it. -/
theorem Content.Has.throughout {holds : Nat → Node → Prop} (has : content.Has target start element)
    (throughout : content.Throughout holds start) :
    holds target (.element element) ∧ element.inner.Throughout holds (target + 1) := by
  induction has using Content.Has.induct with
  | leaf first rest start has ih =>
      exact ih throughout.leaf.2
  | here rest =>
      obtain ⟨here, below, _⟩ := throughout.element
      exact ⟨here, below⟩
  | inside tag inner rest start has ih =>
      exact ih throughout.element.2.1
  | behind tag inner rest start has ih =>
      exact ih throughout.element.2.2

theorem Content.Has.subset (has : content.Has target start element) :
    element.tags ⊆ content.tags ∧ element.inner.leaves ⊆ content.leaves := by
  induction has using Content.Has.induct with
  | leaf first rest start has ih =>
      exact ⟨ih.1, List.subset_cons_of_subset _ ih.2⟩
  | here rest =>
      exact ⟨List.subset_append_left _ _, List.subset_append_left _ _⟩
  | inside tag inner rest start has ih =>
      constructor
      · exact List.subset_cons_of_subset _ (List.subset_append_of_subset_left _ ih.1)
      · exact List.subset_append_of_subset_left _ ih.2
  | behind tag inner rest start has ih =>
      constructor
      · exact List.subset_cons_of_subset _ (List.subset_append_of_subset_right _ ih.1)
      · exact List.subset_append_of_subset_right _ ih.2

theorem Content.has_of_mem_sites (member : ⟨target, .element element⟩ ∈ content.sites start) :
    content.Has target start element := by
  obtain ⟨after, _, found⟩ := Content.getElem?_nodes_of_mem_sites member
  exact ⟨after, found⟩

end Has

/-! ### An element in a document -/

/-- The document element as a sequence of its own. -/
def Document.rootContent (document : Document) : Content :=
  .element document.root.tag document.root.inner .done

theorem Document.size_rootContent (document : Document) :
    document.rootContent.size = document.root.size := by
  simp [Document.rootContent, Content.size, Element.size]

theorem Document.tags_rootContent (document : Document) :
    document.rootContent.tags = document.root.tags := by
  simp [Document.rootContent, Content.tags, Element.tags]

private theorem Document.getElem?_nodes_rootContent (document : Document) {index : Nat}
    (within : index < document.root.size) :
    document.nodes[document.rootPosition + index]? = document.rootContent.nodes[index]? := by
  cases index with
  | zero =>
      exact document.getElem?_nodes_rootPosition
  | succ index =>
      have below := document.getElem?_nodes_below (Nat.lt_of_succ_lt_succ within)
      rw [show document.rootPosition + (index + 1) = document.rootPosition + 1 + index by omega, below]
      simp [Document.rootContent, Content.nodes]

theorem Document.throughout_rootContent {document : Document} {holds : Nat → Node → Prop}
    (everywhere : ∀ position node, document.nodes[position]? = some node → document.rootPosition ≤ position →
      position < document.rootPosition + document.root.size → holds position node) :
    document.rootContent.Throughout holds document.rootPosition := by
  intro index node atIndex
  have within : index < document.root.size := by
    rw [← document.size_rootContent, ← Content.length_nodes]
    exact (List.getElem?_eq_some_iff.mp atIndex).1
  rw [← document.getElem?_nodes_rootContent within] at atIndex
  exact everywhere _ node atIndex (Nat.le_add_right _ _) (Nat.add_lt_add_left within _)

theorem Document.getElem?_nodes_before (document : Document) {index : Nat} {item : Misc}
    (atIndex : document.before[index]? = some item) :
    document.nodes[1 + index]? = some (.leaf (.misc item)) := by
  have within := (List.getElem?_eq_some_iff.mp atIndex).1
  rw [Nat.add_comm, Document.nodes_eq, List.getElem?_cons_succ,
    List.getElem?_append_left (by simpa using within)]
  simp [atIndex]

theorem Document.getElem?_nodes_after (document : Document) (index : Nat) :
    document.nodes[document.rootPosition + document.root.size + index]? =
      (document.after[index]?).map (fun item => .leaf (.misc item)) := by
  rw [Document.nodes_eq, Document.rootPosition, Element.size,
    show document.before.length + 1 + (document.root.inner.size + 1) + index =
      document.before.length + (document.root.inner.size + index + 1) + 1 by omega,
    List.getElem?_cons_succ, List.getElem?_append_right (by simp), List.length_map,
    Nat.add_sub_cancel_left, List.getElem?_cons_succ, List.getElem?_append_right (by simp)]
  simp

/-- Elements stand nowhere but in the document element. -/
theorem Document.has_of_site? {document : Document} {position : Nat} {element : Element}
    (stands : document.site? position = some ⟨position, .element element⟩) :
    document.rootContent.Has position document.rootPosition element := by
  have found : document.nodes[position]? = some (.element element) := by
    obtain ⟨node, found, same⟩ := Option.map_eq_some_iff.mp stands
    cases same
    exact found
  by_cases before : position < document.rootPosition
  · exfalso
    cases position with
    | zero =>
        cases found
    | succ index =>
        have within : index < document.before.length := by
          simpa [Document.rootPosition] using before
        have isMisc := document.getElem?_nodes_before (List.getElem?_eq_getElem within)
        rw [Nat.add_comm] at isMisc
        rw [isMisc] at found
        cases found
  · have after := Nat.le_of_not_lt before
    obtain ⟨offset, same⟩ := Nat.exists_eq_add_of_le after
    subst same
    by_cases within : offset < document.root.size
    · refine ⟨after, ?_⟩
      rw [Nat.add_sub_cancel_left, ← document.getElem?_nodes_rootContent within]
      exact found
    · exfalso
      obtain ⟨index, same⟩ := Nat.exists_eq_add_of_le (Nat.le_of_not_lt within)
      subst same
      rw [← Nat.add_assoc, document.getElem?_nodes_after] at found
      obtain ⟨item, _, isMisc⟩ := Option.map_eq_some_iff.mp found
      cases isMisc

end SamlGate.Xml
