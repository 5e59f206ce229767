import SamlGate.Xml.NodeSet

/-!
Sites and positions.

Positions count the nodes of a document in document order, and a node below another fills a part of the
range of positions of the other. The children of an element are found in two ways, as its elements and as
sites with a position; both ways lead to the same first child of a name.
-/

namespace SamlGate.Xml

/-! ### Children by name -/

private theorem find?_sites_elements (start : Nat) (content : Content) (namespaceUri localName : String) :
    (content.sites start).find? (fun child => child.node.isElement namespaceUri localName) = none ∧
        content.elements.find? (fun child => child.tag.isNamed namespaceUri localName) = none ∨
      ∃ position element,
        (content.sites start).find? (fun child => child.node.isElement namespaceUri localName) =
            some ⟨position, .element element⟩ ∧
          content.elements.find? (fun child => child.tag.isNamed namespaceUri localName) =
            some element := by
  induction content generalizing start with
  | done =>
      exact Or.inl ⟨rfl, rfl⟩
  | leaf first rest ih =>
      simpa [Content.sites, Content.elements, Node.isElement] using ih (start + 1)
  | element tag inner rest _ ih =>
      by_cases named : tag.isNamed namespaceUri localName = true
      · refine Or.inr ⟨start, ⟨tag, inner⟩, ?_, ?_⟩
        · simp [Content.sites, Node.isElement, named]
        · simp [Content.elements, named]
      · simpa [Content.sites, Content.elements, Node.isElement, named] using
          ih (start + 1 + inner.size)

/-- The first child of a name is found among the sites below an element as it is among its elements. -/
theorem Site.childNamed?_cases (position : Nat) (element : Element) (namespaceUri localName : String) :
    (⟨position, .element element⟩ : Site).childNamed? namespaceUri localName = none ∧
        element.childNamed? namespaceUri localName = none ∨
      ∃ below child,
        (⟨position, .element element⟩ : Site).childNamed? namespaceUri localName =
            some ⟨below, .element child⟩ ∧
          element.childNamed? namespaceUri localName = some child :=
  find?_sites_elements (position + 1) element.inner namespaceUri localName

theorem Element.isNamed_of_childNamed? {parent child : Element} {namespaceUri localName : String}
    (found : parent.childNamed? namespaceUri localName = some child) :
    child.tag.isNamed namespaceUri localName = true := by
  simpa using List.find?_some found

theorem Site.mem_children_of_childNamed? {parent child : Site} {namespaceUri localName : String}
    (found : parent.childNamed? namespaceUri localName = some child) : child ∈ parent.children :=
  List.mem_of_find?_eq_some found

/-! ### Nodes by position -/

@[simp] theorem Content.length_nodes (content : Content) : content.nodes.length = content.size := by
  induction content with
  | done =>
      rfl
  | leaf first rest ih =>
      simp [Content.nodes, Content.size, ih]
  | element tag inner rest ihInner ihRest =>
      simp [Content.nodes, Content.size, ihInner, ihRest]

private theorem Node.size_pos (node : Node) : 0 < node.size := by
  cases node with
  | document whole =>
      simp [Node.size, Document.size]
  | element held =>
      simp [Node.size, Element.size]
  | leaf held =>
      simp [Node.size]

theorem Site.lt_stop (site : Site) : site.position < site.stop :=
  Nat.lt_add_of_pos_right site.node.size_pos

theorem Content.getElem?_nodes_of_mem_sites {start : Nat} {content : Content} {site : Site}
    (member : site ∈ content.sites start) :
    start ≤ site.position ∧ site.stop ≤ start + content.size ∧
      content.nodes[site.position - start]? = some site.node := by
  induction content generalizing start with
  | done =>
      cases member
  | leaf first rest ih =>
      rcases List.mem_cons.mp member with same | later
      · subst same
        simp [Site.stop, Node.size, Content.size, Content.nodes]
      · obtain ⟨after, before, atPosition⟩ := ih later
        refine ⟨by omega, by simp only [Content.size]; omega, ?_⟩
        rw [show site.position - start = site.position - (start + 1) + 1 by omega]
        simpa [Content.nodes] using atPosition
  | element tag inner rest _ ih =>
      rcases List.mem_cons.mp member with same | later
      · subst same
        refine ⟨Nat.le_refl _, ?_, ?_⟩
        · simp only [Site.stop, Node.size, Element.size, Content.size]
          omega
        · simp [Content.nodes]
      · obtain ⟨after, before, atPosition⟩ := ih later
        refine ⟨by omega, by simp only [Content.size]; omega, ?_⟩
        rw [show site.position - start = inner.size + (site.position - (start + 1 + inner.size)) + 1
          by omega, Content.nodes, List.getElem?_cons_succ, List.getElem?_append_right (by simp)]
        simpa using atPosition

private theorem Content.holder?_of_mem_sites {start owner : Nat} {content : Content} {site : Site}
    (member : site ∈ content.sites start) :
    content.holder? site.position owner start = some owner := by
  induction content generalizing start with
  | done =>
      cases member
  | leaf first rest ih =>
      rcases List.mem_cons.mp member with same | later
      · subst same
        simp [Content.holder?]
      · have after := (Content.getElem?_nodes_of_mem_sites later).1
        rw [Content.holder?, if_neg (by omega)]
        exact ih later
  | element tag inner rest _ ih =>
      rcases List.mem_cons.mp member with same | later
      · subst same
        simp [Content.holder?]
      · have after := (Content.getElem?_nodes_of_mem_sites later).1
        rw [Content.holder?, if_neg (by omega), if_neg (by omega)]
        exact ih later

theorem Document.holder?_of_mem_children {document : Document} {site : Site}
    (member : site ∈ document.rootSite.children) :
    document.holder? site.position = some document.rootPosition :=
  Content.holder?_of_mem_sites member

private theorem nodes_ofMisc (items : List Misc) (rest : Content) :
    (Content.ofMisc items rest).nodes = items.map (fun item => Node.leaf (.misc item)) ++ rest.nodes := by
  induction items with
  | nil =>
      rfl
  | cons item items ih =>
      change Node.leaf (.misc item) :: (Content.ofMisc items rest).nodes = _
      rw [ih]
      rfl

theorem Document.nodes_eq (document : Document) :
    document.nodes =
      .document document :: (document.before.map (fun item => Node.leaf (.misc item)) ++
        .element document.root :: (document.root.inner.nodes ++
          document.after.map (fun item => Node.leaf (.misc item)))) := by
  rw [Document.nodes, Document.content, nodes_ofMisc, Content.nodes, nodes_ofMisc, Content.nodes,
    List.append_nil]

theorem Document.getElem?_nodes_rootPosition (document : Document) :
    document.nodes[document.rootPosition]? = some (.element document.root) := by
  rw [Document.nodes_eq, Document.rootPosition, List.getElem?_cons_succ,
    List.getElem?_append_right (by simp)]
  simp

theorem Document.getElem?_nodes_below (document : Document) {index : Nat}
    (within : index < document.root.inner.size) :
    document.nodes[document.rootPosition + 1 + index]? = document.root.inner.nodes[index]? := by
  rw [Document.nodes_eq, Document.rootPosition,
    show document.before.length + 1 + 1 + index = document.before.length + (index + 1) + 1 by omega,
    List.getElem?_cons_succ, List.getElem?_append_right (by simp)]
  simp only [List.length_map, Nat.add_sub_cancel_left, List.getElem?_cons_succ]
  exact List.getElem?_append_left (by simpa using within)

@[simp] theorem Document.length_nodes (document : Document) :
    document.nodes.length = document.size := by
  simp only [Document.nodes_eq, List.length_cons, List.length_append, List.length_map,
    Content.length_nodes, Document.size, Element.size]
  omega

theorem Document.site?_of_mem_children {document : Document} {site : Site}
    (member : site ∈ document.rootSite.children) : document.site? site.position = some site := by
  obtain ⟨after, before, atPosition⟩ := Content.getElem?_nodes_of_mem_sites member
  have within : site.position - (document.rootPosition + 1) < document.root.inner.size := by
    have := site.lt_stop
    simp only [Document.rootSite] at after before
    omega
  have below := document.getElem?_nodes_below within
  rw [show document.rootPosition + 1 + (site.position - (document.rootPosition + 1)) = site.position by
    simp only [Document.rootSite] at after; omega] at below
  rw [Document.site?, below]
  simp only [Document.rootSite] at atPosition
  rw [atPosition]
  rfl

end SamlGate.Xml
