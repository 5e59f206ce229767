import SamlGate.Proofs.Canonical.Subtree

/-!
Exclusive canonicalization of an element in its envelope.

What stands around an element reaches its exclusive canonical text only through the bindings that are in force
in it, and of these only through those of the prefixes that its tags use. So two elements that agree node for
node have one canonical text, whatever documents they stand in, if these bindings agree.
-/

namespace SamlGate.Canonical

open Xml

/-! ### Elements that agree -/

/-- Two tags are written alike, and each prefix that they use has the same binding in force at both or none
at either. -/
structure SameUse (tag other : Tag) : Prop where
  name : tag.name = other.name
  attributes : tag.attributes = other.attributes
  inForce : ∀ nsPrefix ∈ usedPrefixes tag, inForce? tag.scope nsPrefix = inForce? other.scope nsPrefix

instance (tag other : Tag) : Decidable (SameUse tag other) :=
  decidable_of_iff
    (tag.name = other.name ∧ tag.attributes = other.attributes ∧
      ∀ nsPrefix ∈ usedPrefixes tag, inForce? tag.scope nsPrefix = inForce? other.scope nsPrefix)
    ⟨fun all => ⟨all.1, all.2.1, all.2.2⟩, fun same => ⟨same.name, same.attributes, same.inForce⟩⟩

/-! ### Start tags -/

section Exclusive

variable {form : Form} {surroundings surroundingsToo : Surroundings} {shown shownToo : Nat → Bool}
  {keeps : Bool → Bool}

private theorem declarations_eq_of_sameUse {tag other : Tag} (exclusive : form.method.exclusive = true)
    (noneListed : form.listed = []) (same : SameUse tag other) (declared : Scope) :
    form.declarations declared tag = form.declarations declared other := by
  have candidates (tag : Tag) : form.candidates tag = usedPrefixes tag := by
    simp [Form.candidates, exclusive, noneListed, usedPrefixes]
  have usedToo : usedPrefixes other = usedPrefixes tag := by
    simp [usedPrefixes, attributePrefixes, same.name, same.attributes]
  unfold Form.declarations
  rw [candidates, candidates, usedToo]
  apply List.filterMap_congr
  intro nsPrefix member
  have used := mem_distinct.mp (List.mem_filter.mp member).1
  unfold declaration?
  rw [same.inForce nsPrefix used]

private theorem startTag_eq_of_sameUse {tag other : Tag} (exclusive : form.method.exclusive = true)
    (noneListed : form.listed = []) (same : SameUse tag other)
    (sameDeclared : surroundings.declared = surroundingsToo.declared) :
    form.startTag surroundings tag = form.startTag surroundingsToo other := by
  have fields : form.fields surroundings tag = form.fields surroundingsToo other := by
    simp [Form.fields, takesOver_of_exclusive exclusive, same.attributes]
  unfold Form.startTag
  rw [same.name, fields, sameDeclared, declarations_eq_of_sameUse exclusive noneListed same]

/-! ### Sequences -/

def ShowsByKind (shown : Nat → Bool) (keeps : Bool → Bool) (position : Nat) (node : Node) : Prop :=
  shown position = keeps node.isComment

private theorem contentSpelling_eq_of_matches {content other : Content} {start startToo : Nat}
    (exclusive : form.method.exclusive = true) (noneListed : form.listed = []) (keepsOthers : keeps false = true)
    (alike : content.Matches SameUse other)
    (sameDeclared : surroundings.declared = surroundingsToo.declared)
    (shows : content.Throughout (ShowsByKind shown keeps) start)
    (showsToo : other.Throughout (ShowsByKind shownToo keeps) startToo) :
    contentSpelling form shown surroundings start content =
      contentSpelling form shownToo surroundingsToo startToo other := by
  -- Start tags of corresponding elements are equal, so the same is declared inside them again.
  induction alike generalizing surroundings surroundingsToo start startToo with
  | done =>
      rfl
  | leaf first _ ih =>
      obtain ⟨here, behind⟩ := shows.leaf
      obtain ⟨hereToo, behindToo⟩ := showsToo.leaf
      rw [contentSpelling_leaf, contentSpelling_leaf, here, hereToo, ih sameDeclared behind behindToo]
  | @element tag other inner innerToo rest restToo same _ _ ihInner ihRest =>
      obtain ⟨here, below, behind⟩ := shows.element
      obtain ⟨hereToo, belowToo, behindToo⟩ := showsToo.element
      have startTags : form.startTag surroundings tag = form.startTag surroundingsToo other :=
        startTag_eq_of_sameUse exclusive noneListed same sameDeclared
      have declaredInside :
          (surroundings.inside tag (some (form.startTag surroundings tag))).declared =
            (surroundingsToo.inside other (some (form.startTag surroundingsToo other))).declared := by
        simp only [Surroundings.inside, startTags, sameDeclared]
      have inside := ihInner declaredInside below belowToo
      rw [contentSpelling_element (here.trans keepsOthers),
        contentSpelling_element (hereToo.trans keepsOthers), inside, ihRest sameDeclared behind behindToo]
      unfold elementSpelling
      rw [startTags, same.name]

end Exclusive

/-! ### Elements of documents -/

def subtree (document : Document) (site : Site) (keeps : Bool → Bool) : NodeSet :=
  NodeSet.select document
    (fun position node => site.position ≤ position && position < site.stop && keeps node.isComment)

section Documents

variable {document other : Document} {position positionToo : Nat} {element elementToo : Element}
  {keeps : Bool → Bool}

private theorem subtree_eq_tree (document : Document) (site : Site) :
    subtree document site (fun _ => true) = NodeSet.tree document site := by
  simp [subtree, NodeSet.tree]

private theorem shownBy_subtree_of_outside
    (outside : position < positionToo ∨ positionToo + element.size ≤ position) :
    shownBy (some (subtree document ⟨positionToo, .element element⟩ keeps)) position = false := by
  change (subtree document ⟨positionToo, .element element⟩ keeps).has position = false
  rw [subtree, NodeSet.has_select]
  cases document.nodes[position]? with
  | none =>
      rfl
  | some node =>
      rcases outside with before | after
      · simp [Nat.not_le.mpr before]
      · simp [Site.stop, Node.size, Nat.not_lt.mpr after]

private theorem throughout_subtree (has : document.rootContent.Has position document.rootPosition element) :
    (Content.element element.tag element.inner .done).Throughout
      (ShowsByKind (shownBy (some (subtree document ⟨position, .element element⟩ keeps))) keeps) position := by
  have selects : document.rootContent.Throughout (fun there node =>
      position ≤ there → there < position + element.size →
        ShowsByKind (shownBy (some (subtree document ⟨position, .element element⟩ keeps))) keeps there node)
      document.rootPosition := by
    apply Document.throughout_rootContent
    intro there node atPosition _ _ after before
    change (subtree document ⟨position, .element element⟩ keeps).has there = _
    rw [subtree, NodeSet.has_select, atPosition]
    simp [Site.stop, Node.size, after, before]
  obtain ⟨here, inside⟩ := has.throughout selects
  apply Content.Throughout.of_element
  · exact here (Nat.le_refl _) (by simp [Element.size])
  · refine inside.imp ?_
    intro there node after before showsNode
    apply showsNode
    · omega
    · simp only [Element.size]
      omega

private theorem text_subtree_eq (has : document.rootContent.Has position document.rootPosition element)
    (hasToo : other.rootContent.Has positionToo other.rootPosition elementToo)
    (alike : (Content.element element.tag element.inner .done).Matches SameUse
      (.element elementToo.tag elementToo.inner .done))
    (keepsOthers : keeps false = true) (comments : Bool) :
    Form.text ⟨⟨true, comments⟩, []⟩ document (some (subtree document ⟨position, .element element⟩ keeps)) =
      Form.text ⟨⟨true, comments⟩, []⟩ other
        (some (subtree other ⟨positionToo, .element elementToo⟩ keeps)) := by
  have shows := @throughout_subtree _ _ _ keeps has
  have showsToo := @throughout_subtree _ _ _ keeps hasToo
  obtain ⟨ancestors, _, spelled⟩ := @exists_flatMap_pieces_eq ⟨⟨true, comments⟩, []⟩ true _ _ _ _ has
    (shows.element.1.trans keepsOthers) (fun _ => shownBy_subtree_of_outside)
  obtain ⟨ancestorsToo, _, spelledToo⟩ := @exists_flatMap_pieces_eq ⟨⟨true, comments⟩, []⟩ true _ _ _ _ hasToo
    (showsToo.element.1.trans keepsOthers) (fun _ => shownBy_subtree_of_outside)
  unfold Form.text
  rw [Option.isSome_some, Option.isSome_some, spelled, spelledToo]
  exact congrArg String.ofList
    (contentSpelling_eq_of_matches rfl rfl keepsOthers alike rfl shows showsToo)

end Documents

/-- The exclusive canonical text of an element, with an empty list of prefixes, is the same in every document:
it is that of each element that agrees with it node for node and has the same bindings in force for the
prefixes that are used. -/
theorem exclusive_octets_eq_in_every_envelope {document other : Document} {position positionToo : Nat}
    {element elementToo : Element}
    (stands : document.site? position = some ⟨position, .element element⟩)
    (standsToo : other.site? positionToo = some ⟨positionToo, .element elementToo⟩)
    (same : SameUse element.tag elementToo.tag) (alike : element.inner.Matches SameUse elementToo.inner)
    (comments : Bool) :
    Form.octets ⟨⟨true, comments⟩, []⟩ document
          (some (NodeSet.tree document ⟨position, .element element⟩)) =
        Form.octets ⟨⟨true, comments⟩, []⟩ other
          (some (NodeSet.tree other ⟨positionToo, .element elementToo⟩)) ∧
      Form.octets ⟨⟨true, comments⟩, []⟩ document
          (some (NodeSet.treeWithoutComments document ⟨position, .element element⟩)) =
        Form.octets ⟨⟨true, comments⟩, []⟩ other
          (some (NodeSet.treeWithoutComments other ⟨positionToo, .element elementToo⟩)) := by
  have has := Document.has_of_site? stands
  have hasToo := Document.has_of_site? standsToo
  have whole : (Content.element element.tag element.inner .done).Matches SameUse
      (.element elementToo.tag elementToo.inner .done) :=
    .element same alike .done
  constructor
  · rw [← subtree_eq_tree, ← subtree_eq_tree]
    exact congrArg Octets.ofText (text_subtree_eq has hasToo whole rfl comments)
  · exact congrArg Octets.ofText (@text_subtree_eq _ _ _ _ _ _ (fun isComment => !isComment) has hasToo whole
      rfl comments)

/-- An element under its own declaration, which takes the default namespace back. -/
def bare : Document where
  before := []
  root :=
    { tag := ⟨⟨"p", "e"⟩, some "u", [], [⟨"p", "u"⟩]⟩
      inner := .element ⟨⟨"", "c"⟩, none, [], [⟨"p", "u"⟩]⟩ (.leaf (.misc (.comment "n")) .done) .done }
  after := []

/-- The same element in an envelope with other declarations, an attribute to take over and a neighbour. -/
def enveloped : Document where
  before := [.instruction "t" ""]
  root :=
    { tag := ⟨⟨"", "a"⟩, some "d", [⟨⟨"xml", "lang"⟩, some xmlNamespace, "sv"⟩], [⟨"", "d"⟩, ⟨"q", "w"⟩]⟩
      inner :=
        .leaf (.text "x")
          (.element ⟨⟨"p", "e"⟩, some "u", [], [⟨"p", "u"⟩, ⟨"", ""⟩, ⟨"q", "w"⟩]⟩
            (.element ⟨⟨"", "c"⟩, some "", [], [⟨"p", "u"⟩, ⟨"", ""⟩, ⟨"q", "w"⟩]⟩
              (.leaf (.misc (.comment "n")) .done) .done)
            (.leaf (.text "y") .done)) }
  after := []

theorem exclusive_octets_eq_in_every_envelope_pulled_down :
    Document.read? 4 "<p:e xmlns:p='u'><c><!--n--></c></p:e>" = some bare ∧
      Document.read? 9
          "<?t?><a xmlns='d' xmlns:q='w' xml:lang='sv'>x<p:e xmlns:p='u' xmlns=''><c><!--n--></c></p:e>y</a>" =
        some enveloped ∧
      Form.octets ⟨⟨true, true⟩, []⟩ bare (some (NodeSet.tree bare ⟨1, .element bare.root⟩)) =
        Form.octets ⟨⟨true, true⟩, []⟩ enveloped
          (some (NodeSet.tree enveloped
            ⟨4, .element ⟨⟨⟨"p", "e"⟩, some "u", [], [⟨"p", "u"⟩, ⟨"", ""⟩, ⟨"q", "w"⟩]⟩,
              .element ⟨⟨"", "c"⟩, some "", [], [⟨"p", "u"⟩, ⟨"", ""⟩, ⟨"q", "w"⟩]⟩
                (.leaf (.misc (.comment "n")) .done) .done⟩⟩)) ∧
      Form.text ⟨⟨true, true⟩, []⟩ bare (some (NodeSet.tree bare ⟨1, .element bare.root⟩)) =
        "<p:e xmlns:p=\"u\"><c><!--n--></c></p:e>" := by
  refine ⟨by decide +kernel, by decide +kernel, ?_, by decide +kernel⟩
  exact (exclusive_octets_eq_in_every_envelope rfl rfl (by decide)
    (.element (by decide) (.leaf _ .done) .done) true).1

end SamlGate.Canonical
