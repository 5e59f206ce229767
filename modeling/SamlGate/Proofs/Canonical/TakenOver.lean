import SamlGate.Proofs.Canonical.Rereading

/-!
Attributes that a start tag takes over.

An inclusive method gives an element that nothing above it is shown with the `xml` attributes of the elements
around it. The start tag is then that of a tag which has those attributes itself and takes none over, and
such a tag is as valid as its surroundings are.
-/

namespace SamlGate.Canonical

open Xml

def takenOver (tag : Tag) (ancestors : List Tag) : List Attribute :=
  (nearest ((xmlAttributes tag).map (fun given => given.name.localName))
    (ancestors.flatMap xmlAttributes)).map
    (fun given => ⟨⟨"xml", given.name.localName⟩, some xmlNamespace, given.value⟩)

/-- The tag with all the attributes that are written for it. -/
def completed (form : Form) (surroundings : Surroundings) (tag : Tag) : Tag :=
  if form.takesOver surroundings then
    { tag with attributes := tag.attributes ++ takenOver tag surroundings.ancestors }
  else tag

private theorem mem_nearest {taken : List String} {attributes : List Attribute} {given : Attribute}
    (member : given ∈ nearest taken attributes) :
    given ∈ attributes ∧ given.name.localName ∉ taken := by
  induction attributes generalizing taken with
  | nil =>
      cases member
  | cons first rest ih =>
      unfold nearest at member
      split at member
      · obtain ⟨among, untaken⟩ := ih member
        exact ⟨List.mem_cons_of_mem _ among, untaken⟩
      · rename_i untaken
        rcases List.mem_cons.mp member with same | later
        · subst same
          exact ⟨List.mem_cons_self, untaken⟩
        · obtain ⟨among, untakenToo⟩ := ih later
          exact ⟨List.mem_cons_of_mem _ among, fun known => untakenToo (List.mem_cons_of_mem _ known)⟩

theorem nodup_nearest (taken : List String) (attributes : List Attribute) :
    ((nearest taken attributes).map (fun given => given.name.localName)).Nodup := by
  induction attributes generalizing taken with
  | nil =>
      exact List.nodup_nil
  | cons first rest ih =>
      unfold nearest
      split
      · exact ih taken
      · rw [List.map_cons, List.nodup_cons]
        refine ⟨?_, ih _⟩
        intro again
        obtain ⟨given, member, same⟩ := List.mem_map.mp again
        exact (mem_nearest member).2 (same ▸ List.mem_cons_self)

theorem inheritedFields_eq (tag : Tag) (ancestors : List Tag) :
    inheritedFields tag ancestors = (takenOver tag ancestors).map Field.ofAttribute := by
  unfold inheritedFields takenOver
  rw [List.map_map]
  apply List.map_congr_left
  intro given _
  simp [Field.ofAttribute, QName.written]

private theorem mem_takenOver {tag : Tag} {ancestors : List Tag} {given : Attribute}
    (member : given ∈ takenOver tag ancestors) :
    ∃ outer ∈ ancestors, ∃ source ∈ outer.attributes,
      given = ⟨⟨"xml", source.name.localName⟩, some xmlNamespace, source.value⟩ ∧
        source.name.localName ∉ (xmlAttributes tag).map (fun given => given.name.localName) := by
  obtain ⟨source, among, same⟩ := List.mem_map.mp member
  obtain ⟨inAncestors, untaken⟩ := mem_nearest among
  obtain ⟨outer, isAncestor, inOuter⟩ := List.mem_flatMap.mp inAncestors
  exact ⟨outer, isAncestor, source, (List.mem_filter.mp inOuter).1, same.symm, untaken⟩

section Completed

variable {form : Form} {surroundings : Surroundings} {tag : Tag}

theorem completed_name : (completed form surroundings tag).name = tag.name := by
  unfold completed
  split
  · rfl
  · rfl

theorem completed_namespaceUri : (completed form surroundings tag).namespaceUri = tag.namespaceUri := by
  unfold completed
  split
  · rfl
  · rfl

theorem completed_scope : (completed form surroundings tag).scope = tag.scope := by
  unfold completed
  split
  · rfl
  · rfl

theorem declarations_completed (declared : Scope) :
    form.declarations declared (completed form surroundings tag) = form.declarations declared tag := by
  have prefixes : attributePrefixes (completed form surroundings tag) = attributePrefixes tag := by
    unfold completed
    split
    · unfold attributePrefixes takenOver
      rw [List.map_append, List.filter_append, List.map_map]
      simp
    · rfl
  unfold Form.declarations Form.candidates
  rw [prefixes, completed_name, completed_scope]

/-- The start tag of an element that takes attributes over is that of the completed tag, which takes none. -/
theorem startTag_completed (form : Form) (surroundings : Surroundings) (tag : Tag) :
    form.startTag { surroundings with held := true } (completed form surroundings tag) =
      form.startTag surroundings tag := by
  have fields : form.fields { surroundings with held := true } (completed form surroundings tag) =
      form.fields surroundings tag := by
    unfold Form.fields completed
    have holds : form.takesOver { surroundings with held := true } = false := takesOver_of_held rfl form
    rw [holds]
    cases takes : form.takesOver surroundings with
    | true =>
        simp [inheritedFields_eq]
    | false =>
        simp
  unfold Form.startTag
  rw [fields, declarations_completed, completed_name]

theorem attribute?_completed : (completed form surroundings tag).attribute? = tag.attribute? := by
  funext name
  unfold completed
  split
  · have noneTaken : (takenOver tag surroundings.ancestors).find?
        (fun given => given.namespaceUri = none && given.name.localName = name) = none := by
      rw [List.find?_eq_none]
      intro given member
      obtain ⟨_, _, _, _, same, _⟩ := mem_takenOver member
      simp [same]
    unfold Tag.attribute?
    rw [List.find?_append, noneTaken, Option.or_none]
  · rfl

theorem valid_completed (form : Form) (valid : tag.Valid)
    (around : ∀ outer ∈ surroundings.ancestors, outer.Valid) :
    (completed form surroundings tag).Valid := by
  have isPart : IsPart "xml" := ⟨by decide, List.all_eq_true.mp (by decide), by decide⟩
  unfold completed
  split
  · refine ⟨valid.name, valid.notPrefixed, valid.means, ?_, ?_, valid.bindings⟩
    · intro given member
      rcases List.mem_append.mp member with own | taken
      · exact valid.attributes given own
      · obtain ⟨outer, isAncestor, source, inOuter, same, _⟩ := mem_takenOver taken
        have sourceValid := (around outer isAncestor).attributes source inOuter
        subst same
        exact ⟨⟨.inr isPart, sourceValid.name.back⟩, sourceValid.value, by simp, sourceValid.notDeclaration,
          rfl⟩
    · rw [List.map_append]
      refine List.Nodup.append valid.distinct ?_ ?_
      · have locals : (takenOver tag surroundings.ancestors).map Attribute.meaning =
            ((nearest ((xmlAttributes tag).map (fun given => given.name.localName))
              (surroundings.ancestors.flatMap xmlAttributes)).map (fun given => given.name.localName)).map
                (fun localName => (some xmlNamespace, localName)) := by
          unfold takenOver
          rw [List.map_map, List.map_map]
          rfl
        rw [locals]
        exact (nodup_nearest _ _).map fun _ _ same => (Prod.mk.inj same).2
      · intro meaning inOwn inTaken
        obtain ⟨own, ownMember, ownMeans⟩ := List.mem_map.mp inOwn
        obtain ⟨given, member, givenMeans⟩ := List.mem_map.mp inTaken
        obtain ⟨_, _, source, _, same, untaken⟩ := mem_takenOver member
        subst same
        rw [← ownMeans] at givenMeans
        obtain ⟨sameNamespace, sameLocal⟩ := Prod.mk.inj givenMeans
        apply untaken
        refine List.mem_map.mpr ⟨own, List.mem_filter.mpr ⟨ownMember, ?_⟩, sameLocal.symm⟩
        simpa using sameNamespace.symm
  · exact valid

end Completed

end SamlGate.Canonical
