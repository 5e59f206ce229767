import SamlGate.Proofs.Canonical.Declarations

/-!
Canonical start tags are read as tags that say the same.

A tag is alike another if it has the same name, which is in the same namespace, and the same attributes in
some order. The start tag that is written for a tag is read as a tag alike, in a scope that binds what the
output declares.
-/

namespace SamlGate.Canonical

open Xml Outcome

/-- The other tag says the same, whatever its scope. The empty namespace is none. -/
structure Alike (tag other : Tag) : Prop where
  name : other.name = tag.name
  namespaceUri : other.namespaceUri.getD "" = tag.namespaceUri.getD ""
  attributes : other.attributes.Perm tag.attributes

/-! ### What is written -/

def declaring (binding : PrefixBinding) : WrittenAttribute :=
  ⟨if binding.nsPrefix = "" then ⟨"", "xmlns"⟩ else ⟨"xmlns", binding.nsPrefix⟩, binding.uri⟩

def writing (given : Attribute) : WrittenAttribute :=
  ⟨given.name, given.value⟩

def arranged (tag : Tag) : List Attribute :=
  arrange (fun left right => Field.precedes (Field.ofAttribute left) (Field.ofAttribute right))
    tag.attributes

theorem perm_arranged (tag : Tag) : (arranged tag).Perm tag.attributes :=
  perm_arrange _ _

/-- What is written on the start tag of a tag that takes nothing over. -/
def writtenOn (form : Form) (declared : Scope) (tag : Tag) : List WrittenAttribute :=
  (form.declarations declared tag).map declaring ++ (arranged tag).map writing

/-- A tag takes over nothing if its form does not do so there, and if no tag is around it. -/
def TakesNothingOver (form : Form) (surroundings : Surroundings) : Prop :=
  form.takesOver surroundings = false ∨ surroundings.ancestors = []

theorem takesOver_of_exclusive {form : Form} (exclusive : form.method.exclusive = true)
    (surroundings : Surroundings) : form.takesOver surroundings = false := by
  simp [Form.takesOver, exclusive]

theorem takesOver_of_held {surroundings : Surroundings} (held : surroundings.held = true) (form : Form) :
    form.takesOver surroundings = false := by
  simp [Form.takesOver, held]

private theorem writtenDeclaration_eq (binding : PrefixBinding) :
    writtenDeclaration binding = Markup.attributeSpelling (declaring binding) := by
  unfold writtenDeclaration Markup.attributeSpelling declaring
  rw [escaped_eq_spelled]
  by_cases isDefault : binding.nsPrefix = ""
  · simp [isDefault, QName.written]
  · simp [isDefault, QName.written]

private theorem spelling_ofAttribute (given : Attribute) :
    (Field.ofAttribute given).spelling = Markup.attributeSpelling (writing given) := by
  unfold Field.spelling Field.ofAttribute Markup.attributeSpelling writing
  rw [escaped_eq_spelled]
  simp

theorem fields_eq {form : Form} {surroundings : Surroundings} (alone : TakesNothingOver form surroundings)
    (tag : Tag) : form.fields surroundings tag = (arranged tag).map Field.ofAttribute := by
  unfold Form.fields arranged
  rw [← arrange_map]
  rcases alone with keepsOwn | outermost
  · simp [keepsOwn]
  · simp [inheritedFields, outermost, nearest]

theorem startTag_spelling {form : Form} {surroundings : Surroundings}
    (alone : TakesNothingOver form surroundings) (tag : Tag) :
    (form.startTag surroundings tag).spelling =
      Markup.openingSpelling tag.name (writtenOn form surroundings.declared tag) := by
  have declarations (bindings : List PrefixBinding) : bindings.flatMap writtenDeclaration =
      (bindings.map declaring).flatMap Markup.attributeSpelling := by
    rw [List.flatMap_map]
    exact congrArg (fun spelling => List.flatMap spelling bindings) (funext writtenDeclaration_eq)
  have fields (attributes : List Attribute) : (attributes.map Field.ofAttribute).flatMap Field.spelling =
      (attributes.map writing).flatMap Markup.attributeSpelling := by
    rw [List.flatMap_map, List.flatMap_map]
    exact congrArg (fun spelling => List.flatMap spelling attributes) (funext spelling_ofAttribute)
  unfold StartTag.spelling Form.startTag Markup.openingSpelling writtenOn
  simp only [fields_eq alone, declarations, fields, List.flatMap_append, List.append_assoc,
    List.cons_append]

private theorem binding?_declaring (binding : PrefixBinding) :
    (declaring binding).binding? = some binding := by
  obtain ⟨nsPrefix, uri⟩ := binding
  unfold declaring WrittenAttribute.binding?
  by_cases isDefault : nsPrefix = ""
  · subst isDefault
    simp
  · simp [isDefault]

private theorem binding?_writing {scope : Scope} {given : Attribute} (valid : given.ValidIn scope) :
    (writing given).binding? = none :=
  WrittenAttribute.binding?_eq_none_iff.mpr ⟨valid.notPrefixed, valid.notDeclaration⟩

theorem valid_writtenOn {form : Form} {declared : Scope} {tag : Tag} (valid : tag.Valid) :
    ∀ written ∈ writtenOn form declared tag, written.Valid := by
  have isPart : IsPart "xmlns" := ⟨by decide, List.all_eq_true.mp (by decide), by decide⟩
  intro written member
  rcases List.mem_append.mp member with isDeclaration | isAttribute
  · obtain ⟨binding, among, same⟩ := List.mem_map.mp isDeclaration
    obtain ⟨bindingValid, _⟩ := valid_of_mem_declarations valid among
    subst same
    refine ⟨?_, bindingValid.permitted⟩
    unfold declaring
    split
    · exact ⟨Or.inl rfl, isPart⟩
    · rename_i prefixed
      exact ⟨Or.inr isPart, bindingValid.front.resolve_left prefixed⟩
  · obtain ⟨given, among, same⟩ := List.mem_map.mp isAttribute
    have givenValid := valid.attributes given ((perm_arranged tag).mem_iff.mp among)
    subst same
    exact ⟨givenValid.name, givenValid.value⟩

/-! ### What is read -/

private theorem ofWritten?_writtenOn {form : Form} {declared : Scope} {tag : Tag} (valid : tag.Valid) :
    Scope.ofWritten? (writtenOn form declared tag) = some (form.declarations declared tag) := by
  have bindings : (writtenOn form declared tag).filterMap WrittenAttribute.binding? =
      form.declarations declared tag := by
    have fromAttributes : ((arranged tag).map writing).filterMap WrittenAttribute.binding? = [] := by
      rw [List.filterMap_eq_nil_iff]
      intro written member
      obtain ⟨given, among, same⟩ := List.mem_map.mp member
      subst same
      exact binding?_writing (valid.attributes given ((perm_arranged tag).mem_iff.mp among))
    have fromDeclarations (bindings : List PrefixBinding) :
        (bindings.map declaring).filterMap WrittenAttribute.binding? = bindings := by
      rw [List.filterMap_map]
      have undone : WrittenAttribute.binding? ∘ declaring = some := funext binding?_declaring
      rw [undone, List.filterMap_some]
    rw [writtenOn, List.filterMap_append, fromAttributes, fromDeclarations, List.append_nil]
  have notBuiltIn : (form.declarations declared tag).filter (fun binding => binding.uri ≠ xmlNamespace) =
      form.declarations declared tag := by
    rw [List.filter_eq_self]
    intro binding member
    simpa using (valid_of_mem_declarations valid member).1.notBuiltIn
  have allowed : (form.declarations declared tag).all PrefixBinding.isAllowed = true := by
    rw [List.all_eq_true]
    intro binding member
    have bindingValid := (valid_of_mem_declarations valid member).1
    simp [PrefixBinding.isAllowed, bindingValid.notOfDeclarations, bindingValid.notBuiltIn,
      bindingValid.notXml]
  unfold Scope.ofWritten?
  simp only [bindings, notBuiltIn]
  rw [if_pos ⟨allowed, (nodup_declarations form declared tag).filter _⟩]

/-- The scope in which the name and the attributes of a written tag are read. -/
def rescoped (form : Form) (declared outer : Scope) (tag : Tag) : Scope :=
  Scope.within (form.declarations declared tag) outer

theorem lookup?_rescoped {form : Form} {declared outer : Scope} {tag : Tag}
    (same : ∀ nsPrefix, outer.lookup? nsPrefix = declared.lookup? nsPrefix) (nsPrefix : String) :
    Scope.lookup? (rescoped form declared outer tag) nsPrefix =
      Scope.lookup? (form.declarations declared tag ++ declared) nsPrefix := by
  rw [rescoped, Scope.lookup?_within, Scope.lookup?_append, Scope.lookup?_append, same]

/-- The tag that is read where a tag is written inside the scope `outer`. -/
def Form.restatedTag (form : Form) (declared outer : Scope) (tag : Tag) : Tag where
  name := tag.name
  namespaceUri := (rescoped form declared outer tag).lookup? tag.name.nsPrefix
  attributes := arranged tag
  scope := rescoped form declared outer tag

section Meaning

variable {form : Form} {declared outer : Scope} {tag : Tag}

private theorem mem_candidates_of_lookup? {nsPrefix uri : String}
    (used : nsPrefix ∈ usedPrefixes tag) (bound : tag.scope.lookup? nsPrefix = some uri) :
    nsPrefix ∈ form.candidates tag := by
  unfold Form.candidates
  split
  · exact List.mem_append_left _ used
  · obtain ⟨binding, member, same, _⟩ := Scope.exists_of_lookup?_eq_some bound
    exact List.mem_cons_of_mem _ (List.mem_map.mpr ⟨binding, member, same⟩)

private theorem lookup?_rescoped_of_used {nsPrefix uri : String} (valid : tag.Valid)
    (faithful : Faithful tag)
    (same : ∀ nsPrefix, outer.lookup? nsPrefix = declared.lookup? nsPrefix)
    (used : nsPrefix ∈ usedPrefixes tag) (prefixed : nsPrefix ≠ "")
    (bound : tag.scope.lookup? nsPrefix = some uri) :
    Scope.lookup? (rescoped form declared outer tag) nsPrefix = some uri := by
  obtain ⟨binding, member, samePrefix, _⟩ := Scope.exists_of_lookup?_eq_some bound
  have notBuiltIn : nsPrefix ≠ "xml" := samePrefix ▸ (valid.bindings binding member).notXml
  have inForce : inForce? tag.scope nsPrefix = some uri :=
    (faithful.prefixed nsPrefix used prefixed).trans bound
  rw [lookup?_rescoped same]
  exact (lookup?_declarations (mem_candidates_of_lookup? used bound) notBuiltIn).1 uri inForce

/-- The default namespace of the tag is kept, where the empty one counts as none. -/
theorem lookup?_rescoped_default (faithful : Faithful tag) (isDefault : tag.name.nsPrefix = "")
    (same : ∀ nsPrefix, outer.lookup? nsPrefix = declared.lookup? nsPrefix)
    (due : "" ∈ form.candidates tag) :
    (Scope.lookup? (rescoped form declared outer tag) "").getD "" = (tag.scope.lookup? "").getD "" := by
  obtain ⟨kept, takenBack⟩ := @lookup?_declarations form declared tag "" due (by decide)
  rw [lookup?_rescoped same, ← faithful.unprefixed isDefault]
  cases inForce : inForce? tag.scope "" with
  | none =>
      exact takenBack inForce rfl
  | some uri =>
      rw [kept uri inForce]

private theorem elementNamespace?_rescoped (valid : tag.Valid) (faithful : Faithful tag)
    (same : ∀ nsPrefix, outer.lookup? nsPrefix = declared.lookup? nsPrefix) :
    ∃ namespaceUri, (rescoped form declared outer tag).elementNamespace? tag.name = some namespaceUri ∧
      namespaceUri.getD "" = tag.namespaceUri.getD "" := by
  have means := valid.means
  by_cases isDefault : tag.name.nsPrefix = ""
  · have due : "" ∈ form.candidates tag := by
      unfold Form.candidates
      split
      · simp [isDefault]
      · exact List.mem_cons_self
    have ofDefault (scope : Scope) : scope.elementNamespace? tag.name = some (scope.lookup? "") := by
      unfold Scope.elementNamespace?
      rw [isDefault]
      cases scope.lookup? "" with
      | none =>
          rfl
      | some uri =>
          rfl
    rw [ofDefault] at means
    refine ⟨_, ofDefault _, ?_⟩
    rw [lookup?_rescoped_default faithful isDefault same due, Option.some.inj means]
  · unfold Scope.elementNamespace? at means
    cases bound : tag.scope.lookup? tag.name.nsPrefix with
    | none =>
        simp [bound, isDefault] at means
    | some uri =>
        have kept : Scope.lookup? (rescoped form declared outer tag) tag.name.nsPrefix = some uri :=
          lookup?_rescoped_of_used valid faithful same List.mem_cons_self isDefault bound
        rw [bound] at means
        refine ⟨some uri, ?_, ?_⟩
        · unfold Scope.elementNamespace?
          rw [kept]
        · rw [← Option.some.inj means]

private theorem attributeNamespace?_rescoped {given : Attribute} (valid : tag.Valid)
    (faithful : Faithful tag)
    (same : ∀ nsPrefix, outer.lookup? nsPrefix = declared.lookup? nsPrefix)
    (member : given ∈ tag.attributes) :
    (rescoped form declared outer tag).attributeNamespace? given.name = some given.namespaceUri := by
  have means := (valid.attributes given member).means
  unfold Scope.attributeNamespace? at means ⊢
  by_cases unprefixed : given.name.nsPrefix = ""
  · rw [if_pos unprefixed] at means ⊢
    exact means
  · rw [if_neg unprefixed] at means ⊢
    by_cases builtIn : given.name.nsPrefix = "xml"
    · rw [if_pos builtIn] at means ⊢
      exact means
    · rw [if_neg builtIn] at means ⊢
      obtain ⟨uri, bound, sameUri⟩ := Option.map_eq_some_iff.mp means
      have used : given.name.nsPrefix ∈ attributePrefixes tag := by
        unfold attributePrefixes
        rw [List.mem_filter]
        refine ⟨List.mem_map.mpr ⟨given, member, rfl⟩, ?_⟩
        simp [unprefixed, builtIn]
      rw [lookup?_rescoped_of_used valid faithful same (List.mem_cons_of_mem _ used) unprefixed bound]
      exact congrArg some sameUri

theorem alike_restatedTag (valid : tag.Valid) (faithful : Faithful tag)
    (same : ∀ nsPrefix, outer.lookup? nsPrefix = declared.lookup? nsPrefix) :
    Alike tag (form.restatedTag declared outer tag) := by
  obtain ⟨namespaceUri, means, sameNamespace⟩ :=
    @elementNamespace?_rescoped form declared outer tag valid faithful same
  refine ⟨rfl, ?_, perm_arranged tag⟩
  rw [Form.restatedTag, Scope.lookup?_of_elementNamespace? means, sameNamespace]

theorem ofWritten?_restatedTag (valid : tag.Valid) (faithful : Faithful tag)
    (same : ∀ nsPrefix, outer.lookup? nsPrefix = declared.lookup? nsPrefix) :
    Tag.ofWritten? outer tag.name (writtenOn form declared tag) =
      some (form.restatedTag declared outer tag) := by
  obtain ⟨namespaceUri, means, _⟩ :=
    @elementNamespace?_rescoped form declared outer tag valid faithful same
  have sameNamespace := Scope.lookup?_of_elementNamespace? means
  subst sameNamespace
  have inTag {given : Attribute} (member : given ∈ arranged tag) : given ∈ tag.attributes :=
    (perm_arranged tag).mem_iff.mp member
  have written : (writtenOn form declared tag).filter (fun given => given.binding?.isNone) =
      (arranged tag).map writing := by
    have noDeclaration : ((form.declarations declared tag).map declaring).filter
        (fun given => given.binding?.isNone) = [] := by
      rw [List.filter_eq_nil_iff]
      intro given member
      obtain ⟨binding, _, declares⟩ := List.mem_map.mp member
      simp [← declares, binding?_declaring]
    have allAttributes : ((arranged tag).map writing).filter (fun given => given.binding?.isNone) =
        (arranged tag).map writing := by
      rw [List.filter_eq_self]
      intro written member
      obtain ⟨given, among, writes⟩ := List.mem_map.mp member
      simp [← writes, binding?_writing (valid.attributes given (inTag among))]
    rw [writtenOn, List.filter_append, noDeclaration, allAttributes, List.nil_append]
  have attributes : ((writtenOn form declared tag).filter (fun given => given.binding?.isNone)).mapM
      (Attribute.ofWritten? (rescoped form declared outer tag)) = some (arranged tag) := by
    rw [written, mapM_eq_some_iff, List.forall₂_map_left_iff, List.forall₂_same]
    intro given member
    unfold Attribute.ofWritten? writing
    rw [attributeNamespace?_rescoped valid faithful same (inTag member)]
    rfl
  have distinct : ((arranged tag).map Attribute.meaning).Nodup :=
    ((perm_arranged tag).map Attribute.meaning).nodup_iff.mpr valid.distinct
  unfold Tag.ofWritten?
  refine Option.bind_eq_some_iff.mpr ⟨_, ofWritten?_writtenOn valid, ?_⟩
  refine Option.bind_eq_some_iff.mpr ⟨_, means, ?_⟩
  refine Option.bind_eq_some_iff.mpr ⟨arranged tag, attributes, ?_⟩
  exact if_pos ⟨valid.notPrefixed, distinct⟩

end Meaning

end SamlGate.Canonical
