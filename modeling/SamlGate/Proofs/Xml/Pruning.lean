import SamlGate.Proofs.Xml.Deletion
import SamlGate.Proofs.Xml.Identifiers

/-!
Elements without their children of one name.

All the children of the name go, with all that they hold, and texts that come to touch become one text. The
other children stay, and so they are found by their names as before, though at other positions. Where it is
done to the first child of some name of an element, nothing beside that child changes.
-/

namespace SamlGate.Xml

def Content.beginsWith (namespaceUri localName : String) : Content → Bool
  | .element tag _ _ => tag.isNamed namespaceUri localName
  | _ => false

def Content.lessNamed (namespaceUri localName : String) : Content → Content
  | .done => .done
  | .leaf first rest =>
    if rest.beginsWith namespaceUri localName then .joined first (rest.lessNamed namespaceUri localName)
    else .leaf first (rest.lessNamed namespaceUri localName)
  | .element tag inner rest =>
    if tag.isNamed namespaceUri localName then rest.lessNamed namespaceUri localName
    else .element tag inner (rest.lessNamed namespaceUri localName)

/-- The sequence with another content in its first element of this name. -/
def Content.changeFirst (namespaceUri localName : String) (change : Content → Content) : Content → Content
  | .done => .done
  | .leaf first rest => .leaf first (rest.changeFirst namespaceUri localName change)
  | .element tag inner rest =>
    if tag.isNamed namespaceUri localName then .element tag (change inner) rest
    else .element tag inner (rest.changeFirst namespaceUri localName change)

def Document.withInner (document : Document) (inner : Content) : Document :=
  { document with root := { document.root with inner := inner } }

/-! ### Children that go -/

section Pruned

variable {namespaceUri localName : String}

private theorem Content.elements_joined (first : Leaf) (rest : Content) :
    (Content.joined first rest).elements = rest.elements := by
  unfold Content.joined
  split
  · rfl
  · rfl

private theorem Content.elements_lessNamed (content : Content) :
    (content.lessNamed namespaceUri localName).elements =
      content.elements.filter (fun child => !child.tag.isNamed namespaceUri localName) := by
  induction content with
  | done =>
      rfl
  | leaf first rest ih =>
      unfold lessNamed
      split
      · rw [elements_joined, ih]
        rfl
      · exact ih
  | element tag inner rest _ ih =>
      unfold lessNamed
      split
      · rename_i named
        rw [ih, elements, List.filter_cons_of_neg (by simpa using named)]
      · rename_i otherwise
        rw [elements, elements, ih, List.filter_cons_of_pos (by simpa using otherwise)]

/-- The texts beside an element that goes become one text. -/
example :
    (Content.leaf (.text "a")
        (.element ⟨⟨"", "k"⟩, some "u", [], []⟩ .done (.leaf (.text "b") .done))).lessNamed "u" "k" =
      .leaf (.text "ab") .done := by
  rfl

theorem Content.tags_lessNamed_sublist (content : Content) :
    (content.lessNamed namespaceUri localName).tags.Sublist content.tags := by
  induction content with
  | done =>
      exact .slnil
  | leaf first rest ih =>
      unfold lessNamed
      split
      · rw [tags_joined]
        exact ih
      · exact ih
  | element tag inner rest _ ih =>
      unfold lessNamed
      split
      · exact (ih.trans (List.sublist_append_right inner.tags rest.tags)).cons tag
      · exact ((List.Sublist.refl inner.tags).append ih).cons_cons tag

theorem Element.childNamed?_lessNamed (tag : Tag) (inner : Content) {namespaceToo other : String}
    (different : other ≠ localName) :
    (⟨tag, inner.lessNamed namespaceUri localName⟩ : Element).childNamed? namespaceToo other =
      (⟨tag, inner⟩ : Element).childNamed? namespaceToo other := by
  unfold childNamed?
  rw [Content.elements_lessNamed, List.find?_filter]
  congr 1
  funext child
  have stays : child.tag.isNamed namespaceToo other = true →
      child.tag.isNamed namespaceUri localName = false := by
    unfold Tag.isNamed
    intro isOther
    simp only [Bool.and_eq_true, decide_eq_true_eq] at isOther
    rw [isOther.1, decide_eq_false different, Bool.false_and]
  cases isOther : child.tag.isNamed namespaceToo other with
  | false =>
      simp
  | true =>
      simp [stays isOther]

theorem Element.childNamed?_lessNamed_self (tag : Tag) (inner : Content) :
    (⟨tag, inner.lessNamed namespaceUri localName⟩ : Element).childNamed? namespaceUri localName = none := by
  unfold childNamed?
  rw [Content.elements_lessNamed, List.find?_eq_none]
  intro child member
  simpa using (List.mem_filter.mp member).2

end Pruned

/-! ### The child in which they go -/

section Changed

variable {namespaceUri localName : String} {change : Content → Content} {content : Content}

/-- The first child is found where it was, and a sequence without it is the same as before. -/
theorem Content.changeFirst_of_find? {start position : Nat} {element : Element}
    (first : (content.sites start).find? (fun child => child.node.isElement namespaceUri localName) =
      some ⟨position, .element element⟩) :
    ((content.changeFirst namespaceUri localName change).sites start).find?
        (fun child => child.node.isElement namespaceUri localName) =
          some ⟨position, .element ⟨element.tag, change element.inner⟩⟩ ∧
      (content.changeFirst namespaceUri localName change).without position start =
        content.without position start := by
  induction content generalizing start with
  | done =>
      cases first
  | leaf leading rest ih =>
      rw [sites, List.find?_cons_of_neg (by simp [Node.isElement])] at first
      have parts := ih first
      rw [changeFirst, sites, List.find?_cons_of_neg (by simp [Node.isElement]), without, without, parts.2]
      exact ⟨parts.1, rfl⟩
  | element tag inner rest _ ih =>
      unfold changeFirst
      by_cases named : tag.isNamed namespaceUri localName = true
      · rw [sites, List.find?_cons_of_pos (by simpa [Node.isElement] using named)] at first
        cases first
        rw [if_pos named, sites, List.find?_cons_of_pos (by simpa [Node.isElement] using named), without,
          without, if_pos rfl, if_pos rfl]
        exact ⟨rfl, rfl⟩
      · rw [sites, List.find?_cons_of_neg (by simpa [Node.isElement] using named)] at first
        have after := (Content.getElem?_nodes_of_mem_sites (List.mem_of_find?_eq_some first)).1
        have parts := ih first
        simp only at after
        rw [if_neg named, sites, List.find?_cons_of_neg (by simpa [Node.isElement] using named), without,
          without, if_neg (by omega), if_neg (by omega), if_neg (by omega), if_neg (by omega), parts.2]
        exact ⟨parts.1, rfl⟩

theorem Content.tags_changeFirst_sublist
    (fewer : ∀ inner, (change inner).tags.Sublist inner.tags) :
    (content.changeFirst namespaceUri localName change).tags.Sublist content.tags := by
  induction content with
  | done =>
      exact .slnil
  | leaf first rest ih =>
      exact ih
  | element tag inner rest _ ih =>
      unfold changeFirst
      split
      · exact ((fewer inner).append (.refl rest.tags)).cons_cons tag
      · exact ((List.Sublist.refl inner.tags).append ih).cons_cons tag

theorem Content.find?_elements_changeFirst {namespaceToo other : String}
    (different : namespaceToo ≠ namespaceUri) :
    (content.changeFirst namespaceUri localName change).elements.find?
        (fun child => child.tag.isNamed namespaceToo other) =
      content.elements.find? (fun child => child.tag.isNamed namespaceToo other) := by
  induction content with
  | done =>
      rfl
  | leaf first rest ih =>
      exact ih
  | element tag inner rest _ ih =>
      unfold changeFirst
      split
      · rename_i named
        have notOther : tag.isNamed namespaceToo other = false := by
          simp only [Tag.isNamed, Bool.and_eq_true, decide_eq_true_eq] at named
          simp [Tag.isNamed, named.2, different.symm]
        rw [elements, elements, List.find?_cons_of_neg (by simp [notOther]),
          List.find?_cons_of_neg (by simp [notOther])]
      · rw [elements, elements, List.find?_cons, List.find?_cons, ih]

end Changed

/-! ### Identifiers -/

theorem Content.flatMap_identifiers (content : Content) :
    content.nodes.flatMap Node.identifiers = content.tags.flatMap Tag.identifiers := by
  induction content with
  | done =>
      rfl
  | leaf first rest ih =>
      simpa [nodes, tags, Node.identifiers] using ih
  | element tag inner rest ihInner ihRest =>
      simp [nodes, tags, Node.identifiers, ihInner, ihRest]

theorem Document.flatMap_identifiers (document : Document) :
    document.nodes.flatMap Node.identifiers = document.root.tags.flatMap Tag.identifiers := by
  have none (items : List Misc) : items.flatMap (fun _ => ([] : List String)) = [] :=
    List.flatMap_eq_nil_iff.mpr fun _ _ => rfl
  rw [Document.nodes_eq]
  simp [List.flatMap_map, none, Node.identifiers, Element.tags, Content.flatMap_identifiers]

end SamlGate.Xml
