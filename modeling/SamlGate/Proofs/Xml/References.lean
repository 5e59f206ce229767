import Mathlib.Data.List.Nodup
import Mathlib.Logic.Relation
import SamlGate.Proofs.Outcome
import SamlGate.Proofs.Xml.Identifiers
import SamlGate.Proofs.Xml.Subtrees

/-!
A reference means one element.

The nodes below an element are those that its children lead to, child by child, and these are the nodes at the
positions of its subtree. A value is claimed wherever an identifying attribute has it. The identifiers of a
document are given out only if no value is claimed at two places, and then a reference selects the one element
that claims its value, with what is below it, or the whole document, or nothing at all.
-/

namespace SamlGate.Xml

open Outcome

/-! ### Nodes below a site -/

/-- The other site is this one, or is below it. -/
def Site.Holds (site below : Site) : Prop :=
  Relation.ReflTransGen (fun parent child => child ∈ parent.children) site below

private theorem Content.not_document_mem_nodes {content : Content} {whole : Document} :
    Node.document whole ∉ content.nodes := by
  induction content with
  | done => simp [Content.nodes]
  | leaf first rest ih => simp [Content.nodes, ih]
  | element tag inner rest ihInner ihRest => simp [Content.nodes, ihInner, ihRest]

private theorem Content.exists_site_of_getElem?_nodes {content : Content} {start index : Nat} {node : Node}
    (atIndex : content.nodes[index]? = some node) :
    ∃ site ∈ content.sites start, site.Holds ⟨start + index, node⟩ := by
  induction content generalizing start index with
  | done => cases atIndex
  | leaf first rest ih =>
      cases index with
      | zero =>
          cases atIndex
          exact ⟨_, List.mem_cons_self, .refl⟩
      | succ index =>
          obtain ⟨site, member, holds⟩ := @ih (start + 1) index atIndex
          rw [Nat.add_right_comm, Nat.add_assoc] at holds
          exact ⟨site, List.mem_cons_of_mem _ member, holds⟩
  | element tag inner rest ihInner ihRest =>
      cases index with
      | zero =>
          cases atIndex
          exact ⟨_, List.mem_cons_self, .refl⟩
      | succ index =>
          rw [Content.nodes, List.getElem?_cons_succ] at atIndex
          by_cases within : index < inner.size
          · rw [List.getElem?_append_left (by simpa using within)] at atIndex
            obtain ⟨site, member, holds⟩ := @ihInner (start + 1) index atIndex
            rw [Nat.add_right_comm, Nat.add_assoc] at holds
            exact ⟨_, List.mem_cons_self, .head member holds⟩
          · rw [List.getElem?_append_right (by simpa using within), Content.length_nodes] at atIndex
            obtain ⟨site, member, holds⟩ := @ihRest (start + 1 + inner.size) _ atIndex
            rw [show start + 1 + inner.size + (index - inner.size) = start + (index + 1) by omega] at holds
            exact ⟨site, List.mem_cons_of_mem _ member, holds⟩

namespace Document

variable {document : Document} {site below child : Site}

private theorem throughout_inner {position : Nat} {element : Element}
    (stands : document.nodes[position]? = some (.element element)) :
    element.inner.Throughout (fun place node => document.nodes[place]? = some node) (position + 1) := by
  have has : document.rootContent.Has position document.rootPosition element := by
    apply has_of_site?
    rw [site?, stands]
    rfl
  exact (has.throughout (throughout_rootContent fun _ _ found _ _ => found)).2

private theorem children_cases (stands : document.nodes[site.position]? = some site.node) :
    site.children = [] ∧ site.stop = site.position + 1 ∨
      ∃ content : Content, site.children = content.sites (site.position + 1) ∧
        site.stop = site.position + 1 + content.size ∧
        content.Throughout (fun place node => document.nodes[place]? = some node) (site.position + 1) := by
  obtain ⟨position, node⟩ := site
  cases node with
  | document whole =>
      cases position with
      | zero =>
          cases stands
          refine .inr ⟨document.content, rfl, ?_, ?_⟩
          · have counted := document.length_nodes
            rw [nodes, List.length_cons, Content.length_nodes] at counted
            simp only [Site.stop, Node.size]
            omega
          · intro index node atIndex
            rw [Nat.zero_add, Nat.add_comm, nodes, List.getElem?_cons_succ]
            exact atIndex
      | succ position =>
          rw [nodes, List.getElem?_cons_succ] at stands
          exact absurd (List.mem_of_getElem? stands) Content.not_document_mem_nodes
  | element element =>
      refine .inr ⟨element.inner, rfl, ?_, throughout_inner stands⟩
      simp only [Site.stop, Node.size, Element.size]
      omega
  | leaf first => exact .inl ⟨rfl, rfl⟩

/-- A child stands in the document behind its parent, with its whole subtree in that of the parent. -/
theorem stands_of_mem_children (stands : document.nodes[site.position]? = some site.node)
    (member : child ∈ site.children) :
    document.nodes[child.position]? = some child.node ∧ site.position ≤ child.position ∧
      child.stop ≤ site.stop := by
  rcases children_cases stands with ⟨none, _⟩ | ⟨content, same, stop, throughout⟩
  · rw [none] at member
    cases member
  · rw [same] at member
    obtain ⟨after, before, found⟩ := Content.getElem?_nodes_of_mem_sites member
    have there := throughout _ _ found
    rw [Nat.add_sub_cancel' after] at there
    exact ⟨there, Nat.le_of_succ_le after, stop ▸ before⟩

/-- What a site holds are the nodes at the positions of its subtree. -/
theorem holds_iff (stands : document.nodes[site.position]? = some site.node) :
    site.Holds below ↔
      document.nodes[below.position]? = some below.node ∧ site.position ≤ below.position ∧
        below.position < site.stop := by
  constructor
  · intro holds
    have within : document.nodes[below.position]? = some below.node ∧ site.position ≤ below.position ∧
        below.stop ≤ site.stop := by
      induction holds with
      | refl => exact ⟨stands, Nat.le_refl _, Nat.le_refl _⟩
      | tail _ member ih =>
          obtain ⟨standsToo, after, before⟩ := ih
          obtain ⟨found, later, earlier⟩ := stands_of_mem_children standsToo member
          exact ⟨found, Nat.le_trans after later, Nat.le_trans earlier before⟩
    exact ⟨within.1, within.2.1, Nat.lt_of_lt_of_le below.lt_stop within.2.2⟩
  · intro within
    obtain ⟨found, after, before⟩ := within
    obtain ⟨offset, same⟩ := Nat.exists_eq_add_of_le after
    cases offset with
    | zero =>
        rw [Nat.add_zero] at same
        rw [same, stands] at found
        obtain ⟨position, node⟩ := below
        cases same
        cases found
        exact .refl
    | succ offset =>
        rcases children_cases stands with ⟨_, stop⟩ | ⟨content, children, stop, throughout⟩
        · omega
        · have inside : offset < content.nodes.length := by
            rw [Content.length_nodes]
            omega
          have atOffset := List.getElem?_eq_getElem inside
          have there := throughout _ _ atOffset
          rw [show site.position + 1 + offset = below.position by omega, found] at there
          obtain ⟨first, member, holds⟩ :=
            @Content.exists_site_of_getElem?_nodes content (site.position + 1) offset _ atOffset
          rw [← Option.some.inj there, show site.position + 1 + offset = below.position by omega] at holds
          rw [← children] at member
          exact .head member holds

end Document

/-! ### Claimed values -/

/-- Where an attribute stands: the position of its element, and its place among the attributes there. -/
structure AttributeSite where
  position : Nat
  index : Nat
  deriving DecidableEq, Repr

/-- The attribute that stands there identifies its element by the value. -/
def Document.Claims (document : Document) (value : String) (place : AttributeSite) : Prop :=
  ∃ (element : Element) (given : Attribute), document.nodes[place.position]? = some (.element element) ∧
    element.tag.attributes[place.index]? = some given ∧ given.namespaceUri = none ∧
    given.name.localName ∈ ["ID", "Id", "id"] ∧ given.value = value

theorem Attribute.isIdentifier_iff {given : Attribute} :
    given.isIdentifier = true ↔ given.namespaceUri = none ∧ given.name.localName ∈ ["ID", "Id", "id"] := by
  simp [Attribute.isIdentifier, or_assoc]

theorem Tag.mem_identifiers_iff {tag : Tag} {value : String} :
    value ∈ tag.identifiers ↔
      ∃ (index : Nat) (given : Attribute), tag.attributes[index]? = some given ∧
        given.isIdentifier = true ∧ given.value = value := by
  unfold Tag.identifiers
  rw [List.mem_map]
  constructor
  · intro carries
    obtain ⟨given, member, same⟩ := carries
    obtain ⟨among, isIdentifier⟩ := List.mem_filter.mp member
    obtain ⟨index, atIndex⟩ := List.mem_iff_getElem?.mp among
    exact ⟨index, given, atIndex, isIdentifier, same⟩
  · intro carries
    obtain ⟨index, given, atIndex, isIdentifier, same⟩ := carries
    exact ⟨given, List.mem_filter.mpr ⟨List.mem_of_getElem? atIndex, isIdentifier⟩, same⟩

theorem Tag.nodup_identifiers_iff {tag : Tag} :
    tag.identifiers.Nodup ↔
      ∀ (one other : Nat) (given givenToo : Attribute), one < other →
        tag.attributes[one]? = some given → tag.attributes[other]? = some givenToo →
        given.isIdentifier = true → givenToo.isIdentifier = true → given.value ≠ givenToo.value := by
  unfold Tag.identifiers List.Nodup
  rw [List.pairwise_map, List.pairwise_filter, List.pairwise_iff_getElem]
  constructor
  · intro distinct one other given givenToo before atOne atOther isIdentifier isIdentifierToo
    obtain ⟨within, same⟩ := List.getElem?_eq_some_iff.mp atOne
    obtain ⟨withinToo, sameToo⟩ := List.getElem?_eq_some_iff.mp atOther
    have different := distinct one other within withinToo before
    rw [same, sameToo] at different
    exact different isIdentifier isIdentifierToo
  · intro distinct one other within withinToo before
    exact distinct one other _ _ before (List.getElem?_eq_getElem within)
      (List.getElem?_eq_getElem withinToo)

namespace Document

variable {document : Document}

theorem exists_claims_iff {value : String} {position : Nat} :
    (∃ index, document.Claims value ⟨position, index⟩) ↔
      ∃ node, document.nodes[position]? = some node ∧ value ∈ node.identifiers := by
  constructor
  · intro claimed
    obtain ⟨index, element, given, stands, atIndex, plain, named, same⟩ := claimed
    refine ⟨.element element, stands, Tag.mem_identifiers_iff.mpr ?_⟩
    exact ⟨index, given, atIndex, Attribute.isIdentifier_iff.mpr ⟨plain, named⟩, same⟩
  · intro carries
    obtain ⟨node, stands, member⟩ := carries
    cases node with
    | document whole => cases member
    | leaf first => cases member
    | element element =>
        obtain ⟨index, given, atIndex, isIdentifier, same⟩ := Tag.mem_identifiers_iff.mp member
        obtain ⟨plain, named⟩ := Attribute.isIdentifier_iff.mp isIdentifier
        exact ⟨index, element, given, stands, atIndex, plain, named, same⟩

def ClaimsOnce (document : Document) : Prop :=
  ∀ value one other, document.Claims value one → document.Claims value other → one = other

/-- Two claims of one value by one element are one claim if its identifiers are distinct. -/
theorem index_eq_of_claims {value : String} {position one other : Nat}
    (distinct : ∀ node ∈ document.nodes, node.identifiers.Nodup)
    (claims : document.Claims value ⟨position, one⟩) (claimsToo : document.Claims value ⟨position, other⟩) :
    one = other := by
  obtain ⟨element, given, stands, atOne, plain, named, same⟩ := claims
  obtain ⟨elementToo, givenToo, standsToo, atOther, plainToo, namedToo, sameToo⟩ := claimsToo
  have sameElement : elementToo = element :=
    Node.element.inj (Option.some.inj (standsToo.symm.trans stands))
  rw [sameElement] at atOther
  have isIdentifier := Attribute.isIdentifier_iff.mpr ⟨plain, named⟩
  have isIdentifierToo := Attribute.isIdentifier_iff.mpr ⟨plainToo, namedToo⟩
  have apart := Tag.nodup_identifiers_iff.mp (distinct _ (List.mem_of_getElem? stands))
  rcases Nat.lt_trichotomy one other with before | equal | behind
  · exact absurd (same.trans sameToo.symm)
      (apart one other given givenToo before atOne atOther isIdentifier isIdentifierToo)
  · exact equal
  · exact absurd (sameToo.trans same.symm)
      (apart other one givenToo given behind atOther atOne isIdentifierToo isIdentifier)

private theorem ClaimsOnce.nodup_identifiers (once : document.ClaimsOnce) {node : Node}
    (among : node ∈ document.nodes) : node.identifiers.Nodup := by
  obtain ⟨position, stands⟩ := List.mem_iff_getElem?.mp among
  cases node with
  | document whole => exact List.nodup_nil
  | leaf first => exact List.nodup_nil
  | element element =>
      apply Tag.nodup_identifiers_iff.mpr
      intro one other given givenToo before atOne atOther isIdentifier isIdentifierToo same
      obtain ⟨plain, named⟩ := Attribute.isIdentifier_iff.mp isIdentifier
      obtain ⟨plainToo, namedToo⟩ := Attribute.isIdentifier_iff.mp isIdentifierToo
      have claims : document.Claims given.value ⟨position, one⟩ :=
        ⟨element, given, stands, atOne, plain, named, rfl⟩
      have claimsToo : document.Claims given.value ⟨position, other⟩ :=
        ⟨element, givenToo, stands, atOther, plainToo, namedToo, same.symm⟩
      exact Nat.ne_of_lt before (AttributeSite.mk.inj (once _ _ _ claims claimsToo)).2

/-- No value occurs twice among the identifiers exactly where no value is claimed at two places. -/
theorem nodup_identifiers_iff :
    (document.identifiers.map Identifier.value).Nodup ↔ document.ClaimsOnce := by
  rw [map_value_identifiers, List.nodup_flatMap, List.pairwise_iff_getElem]
  constructor
  · intro distinct value one other claims claimsToo
    obtain ⟨node, stands, member⟩ := exists_claims_iff.mp ⟨_, claims⟩
    obtain ⟨nodeToo, standsToo, memberToo⟩ := exists_claims_iff.mp ⟨_, claimsToo⟩
    obtain ⟨within, isNode⟩ := List.getElem?_eq_some_iff.mp stands
    obtain ⟨withinToo, isNodeToo⟩ := List.getElem?_eq_some_iff.mp standsToo
    subst isNode isNodeToo
    rcases Nat.lt_trichotomy one.position other.position with before | same | behind
    · exact absurd memberToo (distinct.2 _ _ within withinToo before member)
    · obtain ⟨position, index⟩ := one
      cases same
      rw [index_eq_of_claims distinct.1 claims claimsToo]
    · exact absurd member (distinct.2 _ _ withinToo within behind memberToo)
  · intro once
    refine ⟨fun node among => once.nodup_identifiers among, ?_⟩
    intro one other within withinToo before value member memberToo
    obtain ⟨index, claims⟩ := exists_claims_iff.mpr ⟨_, List.getElem?_eq_getElem within, member⟩
    obtain ⟨indexToo, claimsToo⟩ :=
      exists_claims_iff.mpr ⟨_, List.getElem?_eq_getElem withinToo, memberToo⟩
    exact Nat.ne_of_lt before (AttributeSite.mk.inj (once _ _ _ claims claimsToo)).1

/-! ### What is selected -/

theorem has_treeWithoutComments_iff {site : Site} {position : Nat}
    (stands : document.nodes[site.position]? = some site.node) :
    (NodeSet.treeWithoutComments document site).has position = true ↔
      ∃ node, site.Holds ⟨position, node⟩ ∧ node.isComment = false := by
  unfold NodeSet.treeWithoutComments
  rw [NodeSet.has_select]
  simp only [holds_iff stands]
  cases document.nodes[position]? with
  | none => simp
  | some node => simp [and_assoc]

theorem has_allWithoutComments_iff {position : Nat} :
    (NodeSet.allWithoutComments document).has position = true ↔
      ∃ node, document.nodes[position]? = some node ∧ node.isComment = false := by
  have stop : document.site.stop = document.size := Nat.zero_add _
  unfold NodeSet.allWithoutComments NodeSet.treeWithoutComments
  rw [NodeSet.has_select, stop]
  cases found : document.nodes[position]? with
  | none => simp
  | some node =>
      have within := (List.getElem?_eq_some_iff.mp found).1
      rw [length_nodes] at within
      simp [within, site]

/-- What a reference comes to. The empty one selects the document element with all nodes but comments; a
fragment that some attribute claims selects the element of the attribute, with all that it holds but comments;
any other is refused. -/
inductive Answers (document : Document) : String → Except Error Selection → Prop
  | whole {selection : Selection} (site : selection.site = document.rootSite)
      (members : ∀ position, selection.nodes.has position = true ↔
        ∃ node, document.nodes[position]? = some node ∧ node.isComment = false) :
      Answers document "" (.ok selection)
  | part {value : String} {selection : Selection} {index : Nat}
      (site : document.site? selection.site.position = some selection.site)
      (claims : document.Claims value ⟨selection.site.position, index⟩)
      (only : ∀ place, document.Claims value place → place = ⟨selection.site.position, index⟩)
      (members : ∀ position, selection.nodes.has position = true ↔
        ∃ node, selection.site.Holds ⟨position, node⟩ ∧ node.isComment = false) :
      Answers document ("#" ++ value) (.ok selection)
  | refused {uri : String} {fault : Malformed} (notWhole : uri ≠ "")
      (unclaimed : ∀ value place, uri = "#" ++ value → ¬ document.Claims value place) :
      Answers document uri (.error (.malformed fault))

private theorem resolve_cases (document : Document) (identifiers : List Identifier) (value : String) :
    (∃ site, document.resolve identifiers value = .ok site) ∨
      document.resolve identifiers value = .error (.malformed (.unknownIdentifier value)) := by
  unfold resolve
  split
  · exact .inl ⟨_, rfl⟩
  · exact .inr rfl

private theorem answers_select (once : document.ClaimsOnce) (uri : String) :
    document.Answers uri (document.select document.identifiers uri) := by
  have distinct := nodup_identifiers_iff.mpr once
  by_cases empty : uri = ""
  · subst empty
    exact .whole rfl fun _ => has_allWithoutComments_iff
  · unfold select
    rw [if_neg empty]
    cases named : fragment? uri with
    | none =>
        refine .refused empty fun value place same => ?_
        rw [fragment?_eq_some_iff.mpr same] at named
        cases named
    | some value =>
        have same := fragment?_eq_some_iff.mp named
        subst same
        rcases document.resolve_cases document.identifiers value with ⟨found, resolved⟩ | unknown
        · obtain ⟨stands, carries⟩ := (resolve_eq_ok_iff distinct).mp resolved
          obtain ⟨index, claims⟩ := exists_claims_iff.mpr ⟨_, stands, carries⟩
          simp only [resolved]
          refine .part ?_ claims (fun place claimsToo => once _ _ _ claimsToo claims) fun _ =>
            has_treeWithoutComments_iff stands
          rw [site?, stands]
          rfl
        · simp only [unknown]
          refine .refused empty fun other place same claims => ?_
          obtain ⟨node, stands, carries⟩ := exists_claims_iff.mp ⟨_, claims⟩
          have sameValue : value = other := by
            rw [← String.toList_inj] at same ⊢
            simpa using same
          rw [sameValue] at unknown
          have resolved := (@resolve_eq_ok_iff _ _ ⟨place.position, node⟩ distinct).mpr ⟨stands, carries⟩
          rw [unknown] at resolved
          cases resolved

/-- A document gives out its identifiers exactly where no value is claimed at two places. Then they are the
claimed values, each once and with its element, and every reference selects what it means. -/
theorem identifiers_select_one_element (document : Document) :
    ((∃ identifiers, document.identifierMap = .ok identifiers) ↔ document.ClaimsOnce) ∧
      ∀ identifiers, document.identifierMap = .ok identifiers →
        (identifiers.map Identifier.value).Nodup ∧
          (∀ known, known ∈ identifiers ↔
            ∃ index, document.Claims known.value ⟨known.position, index⟩) ∧
          ∀ uri, document.Answers uri (document.select identifiers uri) := by
  simp only [identifierMap_eq_ok_iff, ← nodup_identifiers_iff]
  constructor
  · exact ⟨fun given => given.choose_spec.2, fun distinct => ⟨_, rfl, distinct⟩⟩
  · intro identifiers given
    obtain ⟨same, distinct⟩ := given
    subst same
    refine ⟨distinct, fun known => ?_, answers_select (nodup_identifiers_iff.mp distinct)⟩
    rw [exists_claims_iff, mem_identifiers_iff]

end Document

end SamlGate.Xml
