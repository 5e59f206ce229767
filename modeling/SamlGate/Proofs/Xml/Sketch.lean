import Mathlib.Data.List.Nodup
import SamlGate.Proofs.Xml.Content

/-!
What a reader sees of an element.

Readers look at the name of an element, at its attributes without a namespace, at its text, and at the
elements that it holds directly, of which they look at the same. A sketch is all that they can see: prefixes,
scopes, comments and instructions are left out, and so is how texts and elements alternate.
-/

namespace SamlGate.Xml

/-! ### Attributes -/

theorem Tag.attribute?_eq_some_iff {tag : Tag} {name value : String}
    (distinct : (tag.attributes.map Attribute.meaning).Nodup) :
    tag.attribute? name = some value ↔
      ∃ given ∈ tag.attributes, given.meaning = (none, name) ∧ given.value = value := by
  have isMeant : (fun given : Attribute => given.namespaceUri = none && given.name.localName = name) =
      fun given => decide (given.meaning = (none, name)) := by
    simp [Attribute.meaning]
  unfold Tag.attribute?
  rw [isMeant]
  constructor
  · intro found
    obtain ⟨given, atGiven, same⟩ := Option.map_eq_some_iff.mp found
    have means := List.find?_some atGiven
    rw [decide_eq_true_eq] at means
    exact ⟨given, List.mem_of_find?_eq_some atGiven, means, same⟩
  · rintro ⟨given, member, means, same⟩
    refine Option.map_eq_some_iff.mpr ⟨given, ?_, same⟩
    cases found : tag.attributes.find? (fun given => decide (given.meaning = (none, name))) with
    | none =>
        exact absurd (decide_eq_true means) (List.find?_eq_none.mp found given member)
    | some first =>
        have meansToo := List.find?_some found
        rw [decide_eq_true_eq] at meansToo
        rw [List.inj_on_of_nodup_map distinct (List.mem_of_find?_eq_some found) member
          (meansToo.trans means.symm)]

/-! ### Sketches -/

structure Sketch where
  /-- The namespace of the name, empty if there is none. -/
  namespaceUri : String
  localName : String
  attribute? : String → Option String
  text : List Char
  elements : List Sketch

def Content.sketches : Content → List Sketch
  | .done => []
  | .leaf _ rest => rest.sketches
  | .element tag inner rest =>
    { namespaceUri := tag.namespaceUri.getD ""
      localName := tag.name.localName
      attribute? := tag.attribute?
      text := inner.text
      elements := inner.sketches } :: rest.sketches

def Element.sketch (element : Element) : Sketch where
  namespaceUri := element.tag.namespaceUri.getD ""
  localName := element.tag.name.localName
  attribute? := element.tag.attribute?
  text := element.inner.text
  elements := element.inner.sketches

theorem Content.sketches_eq (content : Content) : content.sketches = content.elements.map Element.sketch := by
  induction content with
  | done =>
      rfl
  | leaf first rest ih =>
      exact ih
  | element tag inner rest _ ih =>
      rw [Content.sketches, ih]
      rfl

theorem Content.sketches_withText (characters : List Char) (rest : Content) :
    (rest.withText characters).sketches = rest.sketches := by
  unfold Content.withText Content.joined
  split
  · rfl
  · split
    · rfl
    · rfl

/-! ### Children by name -/

def Sketch.isNamed (sketch : Sketch) (namespaceUri localName : String) : Bool :=
  sketch.localName = localName && sketch.namespaceUri = namespaceUri

theorem map_sketch_childNamed? (element : Element) (namespaceUri localName : String) :
    (element.childNamed? namespaceUri localName).map Element.sketch =
      element.sketch.elements.find? (fun child => child.isNamed namespaceUri localName) := by
  change _ = List.find? _ element.inner.sketches
  rw [Content.sketches_eq, List.find?_map]
  rfl

theorem map_sketch_childrenNamed (element : Element) (namespaceUri localName : String) :
    (element.childrenNamed namespaceUri localName).map Element.sketch =
      element.sketch.elements.filter (fun child => child.isNamed namespaceUri localName) := by
  change _ = List.filter _ element.inner.sketches
  rw [Content.sketches_eq, List.filter_map]
  rfl

end SamlGate.Xml
