import Mathlib.Data.List.Forall2
import SamlGate.Proofs.Canonical.Ascending
import SamlGate.Proofs.Canonical.WholeDocument

/-!
The attributes that a start tag is written with.

Below an element of the output an element is written with its own attributes. Otherwise it is written, for
each local name, with the `xml` attribute that it has itself or that the nearest element around it has, shown
or not. All its other attributes are its own, and the attributes together are in ascending order.
-/

namespace SamlGate.Canonical

open Xml

/-! ### The rule -/

def hasXmlName (localName : String) (given : Attribute) : Bool :=
  given.namespaceUri = some xmlNamespace && given.name.localName = localName

def xmlValue? (localName : String) (tag : Tag) : Option String :=
  (tag.attributes.find? (hasXmlName localName)).map Attribute.value

def xmlField (localName value : String) : Field where
  written := "xml:" ++ localName
  namespaceUri := xmlNamespace
  localName := localName
  value := value

def Field.inXml (field : Field) : Bool :=
  field.namespaceUri = xmlNamespace

def Field.hasXmlName (localName : String) (field : Field) : Bool :=
  field.inXml && field.localName = localName

def Standing.held (shown : Nat → Bool) (standing : Standing) : Bool :=
  standing.around.head?.any (fun parent => shown parent.position)

/-- The value of an `xml` attribute on the element itself or else on the nearest element around that has
one. -/
def Standing.nearestXmlValue? (standing : Standing) (localName : String) : Option String :=
  (standing.here :: standing.around).findSome? (fun site => xmlValue? localName site.tag)

/-- The start tag is that of the element and has the attributes that the rule asks for, in order. -/
structure InheritsNearest (shown : Nat → Bool) (standing : Standing) (opening : Nat × StartTag) :
    Prop where
  position : opening.1 = standing.here.position
  name : opening.2.name = standing.here.tag.name.written
  nearest : standing.held shown = false → ∀ localName,
    opening.2.fields.filter (Field.hasXmlName localName) =
      ((standing.nearestXmlValue? localName).map (xmlField localName)).toList
  own : standing.held shown = true →
    (opening.2.fields.filter Field.inXml).Perm
      ((standing.here.tag.attributes.map Field.ofAttribute).filter Field.inXml)
  others : (opening.2.fields.filter (fun field => !field.inXml)).Perm
    ((standing.here.tag.attributes.map Field.ofAttribute).filter (fun field => !field.inXml))
  inOrder : opening.2.InOrder

/-! ### Attributes of one name -/

private theorem filter_eq_toList_find? {α β : Type} {view : α → β} {has : α → Bool} {items : List α}
    (distinct : (items.map view).Nodup) (value : β)
    (sees : ∀ item, has item = true → view item = value) :
    items.filter has = (items.find? has).toList := by
  induction items with
  | nil => rfl
  | cons first rest ih =>
      obtain ⟨fresh, distinctRest⟩ := List.nodup_cons.mp distinct
      by_cases here : has first = true
      · have noneLater : rest.filter has = [] := by
          rw [List.filter_eq_nil_iff]
          intro item member hasToo
          apply fresh
          rw [sees first here, ← sees item hasToo]
          exact List.mem_map_of_mem member
        rw [List.filter_cons_of_pos here, List.find?_cons_of_pos here, noneLater]
        rfl
      · rw [List.filter_cons_of_neg here, List.find?_cons_of_neg here]
        exact ih distinctRest

private theorem prefix_of_inXml {scope : Scope} {given : Attribute} (valid : given.ValidIn scope)
    (bindings : ∀ binding ∈ scope, binding.Valid) (builtIn : given.namespaceUri = some xmlNamespace) :
    given.name.nsPrefix = "xml" := by
  have means := valid.means
  rw [builtIn] at means
  unfold Scope.attributeNamespace? at means
  split at means
  · cases means
  · split at means
    · assumption
    · obtain ⟨uri, bound, same⟩ := Option.map_eq_some_iff.mp means
      obtain ⟨binding, member, _, sameUri⟩ := Scope.exists_of_lookup?_eq_some bound
      exact absurd (sameUri.trans (Option.some.inj same)) (bindings binding member).notBuiltIn

private theorem inXml_ofAttribute (given : Attribute) :
    (Field.ofAttribute given).inXml = decide (given.namespaceUri = some xmlNamespace) := by
  cases uri : given.namespaceUri with
  | none => simp [Field.inXml, Field.ofAttribute, uri, xmlNamespace]
  | some other => simp [Field.inXml, Field.ofAttribute, uri]

private theorem hasXmlName_comp_ofAttribute (localName : String) :
    Field.hasXmlName localName ∘ Field.ofAttribute = hasXmlName localName := by
  funext given
  unfold Function.comp Field.hasXmlName hasXmlName
  rw [inXml_ofAttribute]
  rfl

theorem hasXmlName_iff {localName : String} {given : Attribute} :
    hasXmlName localName given = true ↔
      given.namespaceUri = some xmlNamespace ∧ given.name.localName = localName := by
  unfold hasXmlName
  rw [Bool.and_eq_true, decide_eq_true_eq, decide_eq_true_eq]

private theorem filter_ownFields {tag : Tag} (valid : tag.Valid) (localName : String) :
    (tag.attributes.map Field.ofAttribute).filter (Field.hasXmlName localName) =
      ((xmlValue? localName tag).map (xmlField localName)).toList := by
  have once : tag.attributes.filter (hasXmlName localName) =
      (tag.attributes.find? (hasXmlName localName)).toList := by
    apply filter_eq_toList_find? valid.distinct (some xmlNamespace, localName)
    intro given named
    obtain ⟨builtIn, sameLocal⟩ := hasXmlName_iff.mp named
    exact Prod.ext builtIn sameLocal
  unfold xmlValue?
  rw [List.filter_map, hasXmlName_comp_ofAttribute, once]
  cases found : tag.attributes.find? (hasXmlName localName) with
  | none => rfl
  | some given =>
      obtain ⟨builtIn, sameLocal⟩ := hasXmlName_iff.mp (List.find?_some found)
      have givenValid := valid.attributes given (List.mem_of_find?_eq_some found)
      have front := prefix_of_inXml givenValid valid.bindings builtIn
      simp [Field.ofAttribute, xmlField, QName.written, front, builtIn, sameLocal]

/-- What is taken over under a name is what the nearest tag has under it, unless the name is taken. -/
theorem filter_nearest (taken : List String) (attributes : List Attribute) (localName : String) :
    (nearest taken attributes).filter (fun given => given.name.localName = localName) =
      if localName ∈ taken then []
      else (attributes.find? (fun given => given.name.localName = localName)).toList := by
  induction attributes generalizing taken with
  | nil => simp [nearest]
  | cons first rest ih =>
      unfold nearest
      by_cases here : first.name.localName = localName
      · subst here
        rw [List.find?_cons_of_pos (by simp)]
        split
        · rename_i known
          rw [ih, if_pos known]
        · rw [List.filter_cons_of_pos (by simp), ih, if_pos List.mem_cons_self]
          rfl
      · rw [List.find?_cons_of_neg (by simpa using here)]
        split
        · exact ih taken
        · rw [List.filter_cons_of_neg (by simpa using here), ih]
          simp [Ne.symm here]

private theorem find?_xmlAttributes (tag : Tag) (localName : String) :
    (xmlAttributes tag).find? (fun given => given.name.localName = localName) =
      tag.attributes.find? (hasXmlName localName) := by
  unfold xmlAttributes
  rw [List.find?_filter]
  congr 1
  funext given
  simp [hasXmlName]

theorem mem_map_xmlAttributes_iff {tag : Tag} {localName : String} :
    localName ∈ (xmlAttributes tag).map (fun given => given.name.localName) ↔
      (xmlValue? localName tag).isSome = true := by
  unfold xmlValue?
  rw [Option.isSome_map, ← find?_xmlAttributes, List.find?_isSome, List.mem_map]
  simp

private theorem filter_inheritedFields (tag : Tag) (ancestors : List Tag) (localName : String) :
    (inheritedFields tag ancestors).filter (Field.hasXmlName localName) =
      if (xmlValue? localName tag).isSome then []
      else ((ancestors.findSome? (xmlValue? localName)).map (xmlField localName)).toList := by
  have nearestValue : ((ancestors.flatMap xmlAttributes).find?
        (fun given => given.name.localName = localName)).map Attribute.value =
      ancestors.findSome? (xmlValue? localName) := by
    rw [List.find?_flatMap, List.map_findSome?]
    congr 1
    funext outer
    rw [Function.comp_apply, find?_xmlAttributes]
    rfl
  unfold inheritedFields
  rw [List.filter_map]
  simp only [Function.comp_def, Field.hasXmlName, Field.inXml, decide_true, Bool.true_and]
  rw [filter_nearest]
  by_cases has : (xmlValue? localName tag).isSome = true
  · rw [if_pos has, if_pos (mem_map_xmlAttributes_iff.mpr has)]
    rfl
  · rw [if_neg has, if_neg (fun known => has (mem_map_xmlAttributes_iff.mp known)), ← nearestValue]
    cases found : (ancestors.flatMap xmlAttributes).find?
        (fun given => given.name.localName = localName) with
    | none => rfl
    | some given =>
        have named : given.name.localName = localName := by
          simpa using List.find?_some found
        simp [xmlField, named]

/-! ### The attributes of a start tag -/

private theorem eq_toList_of_perm {α : Type} {items : List α} {found : Option α}
    (perm : items.Perm found.toList) :
    items = found.toList := by
  cases found with
  | none => exact perm.eq_nil
  | some item => exact List.perm_singleton.mp perm

section Fields

variable {form : Form} {surroundings : Surroundings} (tag : Tag)

private theorem perm_fields_of_keepsOwn (keepsOwn : form.takesOver surroundings = false) :
    (form.fields surroundings tag).Perm (tag.attributes.map Field.ofAttribute) := by
  unfold Form.fields
  dsimp only
  rw [keepsOwn, if_neg Bool.false_ne_true]
  exact perm_arrange _ _

private theorem perm_fields_of_takesOver (takes : form.takesOver surroundings = true) :
    (form.fields surroundings tag).Perm
      (tag.attributes.map Field.ofAttribute ++ inheritedFields tag surroundings.ancestors) := by
  unfold Form.fields
  dsimp only
  rw [takes, if_pos rfl]
  exact perm_arrange _ _

private theorem filter_not_inXml_inheritedFields (ancestors : List Tag) :
    (inheritedFields tag ancestors).filter (fun field => !field.inXml) = [] := by
  rw [List.filter_eq_nil_iff]
  intro field member
  obtain ⟨given, _, same⟩ := List.mem_map.mp member
  subst same
  simp [Field.inXml]

private theorem perm_others :
    ((form.fields surroundings tag).filter (fun field => !field.inXml)).Perm
      ((tag.attributes.map Field.ofAttribute).filter (fun field => !field.inXml)) := by
  cases takes : form.takesOver surroundings with
  | false => exact (perm_fields_of_keepsOwn tag takes).filter _
  | true =>
      have perm := (perm_fields_of_takesOver tag takes).filter (fun field => !field.inXml)
      rw [List.filter_append, filter_not_inXml_inheritedFields, List.append_nil] at perm
      exact perm

private theorem filter_fields_of_takesOver {tag : Tag} (takes : form.takesOver surroundings = true)
    (valid : tag.Valid) (localName : String) :
    (form.fields surroundings tag).filter (Field.hasXmlName localName) =
      (((tag :: surroundings.ancestors).findSome? (xmlValue? localName)).map
        (xmlField localName)).toList := by
  apply eq_toList_of_perm
  have perm := (perm_fields_of_takesOver tag takes).filter (Field.hasXmlName localName)
  rw [List.filter_append, filter_ownFields valid, filter_inheritedFields] at perm
  rw [List.findSome?_cons]
  cases has : xmlValue? localName tag with
  | none =>
      rw [has] at perm
      exact perm
  | some value =>
      rw [has] at perm
      exact perm

end Fields

/-! ### Whole documents -/

private theorem WrittenFor.inheritsNearest {form : Form} {shown : Nat → Bool} {standing : Standing}
    {opening : Nat × StartTag} (written : WrittenFor form true shown standing opening)
    (inclusive : form.method.exclusive = false) (valid : standing.here.tag.Valid)
    (conforms : standing.here.tag.scope.Conforms) (around : ∀ site ∈ standing.around, site.tag.Valid) :
    InheritsNearest shown standing opening := by
  have inOrder := written.inOrder valid conforms around
  obtain ⟨position, surroundings, ⟨subset, ancestors, held⟩, same⟩ := written
  obtain ⟨place, startTag⟩ := opening
  subst same
  refine ⟨position, rfl, ?_, ?_, perm_others _, inOrder⟩
  · intro free localName
    have takes : form.takesOver surroundings = true := by
      rw [Form.takesOver, inclusive, subset, held.trans free]
      rfl
    have fields := filter_fields_of_takesOver takes valid localName
    rw [ancestors, ← List.map_cons, List.findSome?_map] at fields
    exact fields
  · intro heldHere
    exact (perm_fields_of_keepsOwn _ (takesOver_of_held (held.trans heldHere) form)).filter _

/-- In inclusive canonical text of a document that conforms to the rules of namespaces, whichever nodes are
shown, the start tags are those of the elements that are shown, in document order. One below an element of
the output has its own attributes, and any other has for each local name the `xml` attribute that is nearest
to it. -/
theorem startTags_inherit_nearest {limit : Nat} {text : String} {document : Document}
    (isRead : Document.read? limit text = some document)
    (conforms : ∀ tag ∈ document.root.tags, tag.scope.Conforms) (form : Form)
    (inclusive : form.method.exclusive = false) (set : Option NodeSet) :
    List.Forall₂ (InheritsNearest (shownBy set))
      ((documentStandings document).filter (fun standing => shownBy set standing.here.position))
      (openings (form.pieces set.isSome (shownBy set) document)) := by
  have tagsFit : ∀ tag ∈ document.rootContent.tags, tag.Valid ∧ tag.scope.Conforms := by
    intro tag member
    refine ⟨(Document.valid_of_read? isRead).rootContent.tags tag member, conforms tag ?_⟩
    rwa [← document.tags_rootContent]
  have standingsFit : ∀ standing ∈ (documentStandings document).filter
        (fun standing => shownBy set standing.here.position),
      (standing.here.tag.Valid ∧ standing.here.tag.scope.Conforms) ∧
        ∀ site ∈ standing.around, site.tag.Valid ∧ site.tag.scope.Conforms := by
    intro standing member
    exact forall_mem_documentStandings tagsFit standing (List.mem_filter.mp member).1
  have written := openings_pieces_writtenFor form true (shownBy set) document
  rw [pieces_shownBy]
  apply ((List.forall₂_and_left _ _).mpr ⟨standingsFit, written⟩).imp
  intro standing opening both
  obtain ⟨⟨⟨valid, conformsHere⟩, around⟩, writtenHere⟩ := both
  exact writtenHere.inheritsNearest inclusive valid conformsHere fun site member => (around site member).1

def lendingText : String :=
  "<a xml:lang='i' xml:base='u'><b xml:lang='j' xml:space='p'>" ++ "<c xml:space='q' k=''/></b></a>"

/-- The inner element takes one attribute from the outermost element and one from the element between them,
which is not shown, and keeps its own. -/
theorem startTags_inherit_nearest_through_hidden :
    ∃ document set, Document.read? 4 lendingText = some document ∧
      List.Forall₂ (InheritsNearest (shownBy (some set)))
        ((documentStandings document).filter (fun standing => shownBy (some set) standing.here.position))
        (openings (Form.pieces ⟨⟨false, false⟩, []⟩ true (shownBy (some set)) document)) ∧
      Form.text ⟨⟨false, false⟩, []⟩ document (some set) =
        "<a xml:base=\"u\" xml:lang=\"i\">" ++
          "<c k=\"\" xml:base=\"u\" xml:lang=\"j\" xml:space=\"q\"></c></a>" := by
  have checked : (Document.read? 4 lendingText).any
      (fun document => (∀ tag ∈ document.root.tags, tag.scope.Conforms) ∧
        Form.text ⟨⟨false, false⟩, []⟩ document
            (some (NodeSet.select document (fun position _ => position ≠ 2))) =
          "<a xml:base=\"u\" xml:lang=\"i\">" ++
            "<c k=\"\" xml:base=\"u\" xml:lang=\"j\" xml:space=\"q\"></c></a>") = true := by
    decide +kernel
  obtain ⟨document, isRead, passes⟩ := (Option.any_eq_true _ _).mp checked
  obtain ⟨conforms, written⟩ := of_decide_eq_true passes
  exact ⟨document, _, isRead, startTags_inherit_nearest isRead conforms _ rfl _, written⟩

end SamlGate.Canonical
