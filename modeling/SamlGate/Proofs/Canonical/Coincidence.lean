import SamlGate.Proofs.Canonical.Ascending
import SamlGate.Proofs.Canonical.WholeDocument

/-!
Where the two methods coincide.

With a list that names every prefix of a document the exclusive method writes what the inclusive one writes:
the prefixes that it looks at differ then only by prefixes that mean nothing, and what is declared is sorted
in both. They differ still in the `xml` attributes, which only the inclusive method hands on, and only past
an element that is not shown.
-/

namespace SamlGate.Canonical

open Xml

structure NamesAll (listed : List String) (document : Document) : Prop where
  default : "#default" ∈ listed
  declared : ∀ tag ∈ document.root.tags, ∀ binding ∈ tag.scope,
    binding.nsPrefix ∈ listed.map listedPrefix

instance (listed : List String) (document : Document) : Decidable (NamesAll listed document) :=
  decidable_of_iff
    ("#default" ∈ listed ∧
      ∀ tag ∈ document.root.tags, ∀ binding ∈ tag.scope, binding.nsPrefix ∈ listed.map listedPrefix)
    ⟨fun both => ⟨both.1, both.2⟩, fun names => ⟨names.default, names.declared⟩⟩

private theorem default_or_bound_of_declaration? {declared scope : Scope} {nsPrefix : String}
    {binding : PrefixBinding} (found : declaration? declared scope nsPrefix = some binding) :
    nsPrefix = "" ∨ nsPrefix ∈ scope.map PrefixBinding.nsPrefix := by
  cases (declaration?_eq_some found).2 with
  | inl inForce =>
      rcases exists_of_inForce?_eq_some inForce with ⟨source, inScope, same, _⟩
      exact .inr (List.mem_map.mpr ⟨source, inScope, same⟩)
  | inr takenBack =>
      exact .inl takenBack.2.1

section Coincidence

variable {listed others : List String} {comments : Bool} {shown : Nat → Bool} {surroundings : Surroundings}
  {start : Nat}

private theorem declarations_coincide {tag : Tag} (default : "#default" ∈ listed)
    (named : ∀ binding ∈ tag.scope, binding.nsPrefix ∈ listed.map listedPrefix) (declared : Scope) :
    Form.declarations ⟨⟨true, comments⟩, listed⟩ declared tag =
      Form.declarations ⟨⟨false, comments⟩, others⟩ declared tag := by
  apply eq_of_ascending (ascending_declarations _ _ _) (ascending_declarations _ _ _)
  intro binding
  rw [mem_declarations_iff, mem_declarations_iff]
  constructor
  · intro conditions
    rcases conditions with ⟨_, notBuiltIn, found⟩
    exact ⟨List.mem_cons.mpr (default_or_bound_of_declaration? found), notBuiltIn, found⟩
  · intro conditions
    rcases conditions with ⟨_, notBuiltIn, found⟩
    refine ⟨List.mem_append_right _ ?_, notBuiltIn, found⟩
    cases default_or_bound_of_declaration? found with
    | inl isDefault =>
        exact List.mem_map.mpr ⟨"#default", default, isDefault.symm⟩
    | inr bound =>
        rcases List.mem_map.mp bound with ⟨source, inScope, same⟩
        rw [← same]
        exact named source inScope

/-- No tag of a sequence has an attribute to take over: all of it is shown below a shown element, or neither
it nor what is around it has `xml` attributes. -/
def NothingToTake (shown : Nat → Bool) (surroundings : Surroundings) (start : Nat) (content : Content) : Prop :=
  (content.Throughout (fun position _ => shown position = true) start ∧
      (surroundings.held = true ∨ surroundings.ancestors = [])) ∨
    ∀ tag ∈ surroundings.ancestors ++ content.tags, xmlAttributes tag = []

private theorem NothingToTake.behind_leaf {first : Leaf} {rest : Content}
    (nothing : NothingToTake shown surroundings start (.leaf first rest)) :
    NothingToTake shown surroundings (start + 1) rest := by
  cases nothing with
  | inl allShown =>
      exact .inl ⟨allShown.1.leaf.2, allShown.2⟩
  | inr bare =>
      exact .inr bare

theorem NothingToTake.below {tag : Tag} {inner rest : Content} (output : Option StartTag)
    (isOutput : shown start = true → output.isSome = true)
    (nothing : NothingToTake shown surroundings start (.element tag inner rest)) :
    NothingToTake shown (surroundings.inside tag output) (start + 1) inner := by
  cases nothing with
  | inl allShown =>
      have parts := allShown.1.element
      exact .inl ⟨parts.2.1, .inl (isOutput parts.1)⟩
  | inr bare =>
      right
      intro other member
      apply bare other
      simp only [Surroundings.inside, Content.tags, List.mem_append, List.mem_cons, List.cons_append]
        at member ⊢
      tauto

private theorem NothingToTake.behind_element {tag : Tag} {inner rest : Content}
    (nothing : NothingToTake shown surroundings start (.element tag inner rest)) :
    NothingToTake shown surroundings (start + 1 + inner.size) rest := by
  cases nothing with
  | inl allShown =>
      exact .inl ⟨allShown.1.element.2.2, allShown.2⟩
  | inr bare =>
      right
      intro other member
      apply bare other
      simp only [Content.tags, List.mem_append, List.mem_cons, List.cons_append] at member ⊢
      tauto

private theorem fields_coincide {tag : Tag} {inner rest : Content}
    (nothing : NothingToTake shown surroundings start (.element tag inner rest)) :
    Form.fields ⟨⟨true, comments⟩, listed⟩ surroundings tag =
      Form.fields ⟨⟨false, comments⟩, others⟩ surroundings tag := by
  cases nothing with
  | inl allShown =>
      have alone (form : Form) : TakesNothingOver form surroundings :=
        allShown.2.imp_left fun held => takesOver_of_held held form
      rw [fields_eq (alone _), fields_eq (alone _)]
  | inr bare =>
      have noneAround : surroundings.ancestors.flatMap xmlAttributes = [] := by
        apply List.flatMap_eq_nil_iff.mpr
        intro outer isAncestor
        exact bare outer (List.mem_append_left _ isAncestor)
      simp [Form.fields, inheritedFields, noneAround, nearest]

private theorem contentPieces_coincide {content : Content} (default : "#default" ∈ listed)
    (named : ∀ tag ∈ content.tags, ∀ binding ∈ tag.scope, binding.nsPrefix ∈ listed.map listedPrefix)
    (nothing : NothingToTake shown surroundings start content) :
    Form.contentPieces ⟨⟨true, comments⟩, listed⟩ shown surroundings start content =
      Form.contentPieces ⟨⟨false, comments⟩, others⟩ shown surroundings start content := by
  -- Start tags that are equal declare the same, so the surroundings stay equal on the way down.
  induction content generalizing surroundings start with
  | done =>
      rfl
  | leaf first rest ih =>
      have leaves : Form.leafPieces ⟨⟨true, comments⟩, listed⟩ first =
          Form.leafPieces ⟨⟨false, comments⟩, others⟩ first := rfl
      rw [Form.contentPieces, Form.contentPieces, leaves, ih named nothing.behind_leaf]
  | element tag inner rest ihInner ihRest =>
      have tagsNamed := List.forall_mem_cons.mp named
      have belowNamed := List.forall_mem_append.mp tagsNamed.2
      have startTags : Form.startTag ⟨⟨true, comments⟩, listed⟩ surroundings tag =
          Form.startTag ⟨⟨false, comments⟩, others⟩ surroundings tag := by
        unfold Form.startTag
        rw [declarations_coincide default tagsNamed.1, fields_coincide nothing]
      rw [Form.contentPieces, Form.contentPieces, startTags, ihRest belowNamed.2 nothing.behind_element]
      cases here : shown start with
      | true =>
          have inside := nothing.below
            (some (Form.startTag ⟨⟨false, comments⟩, others⟩ surroundings tag)) (fun _ => rfl)
          simp only [if_true, ihInner belowNamed.1 inside]
      | false =>
          have inside := nothing.below none (fun isShown => by rw [here] at isShown; cases isShown)
          simp only [Bool.false_eq_true, if_false, ihInner belowNamed.1 inside]

private theorem octets_coincide {document : Document} {set : Option NodeSet}
    (names : NamesAll listed document)
    (nothing : NothingToTake (shownBy set) (.outermost set.isSome) document.rootPosition document.rootContent) :
    Form.octets ⟨⟨true, comments⟩, listed⟩ document set =
      Form.octets ⟨⟨false, comments⟩, others⟩ document set := by
  have named := names.declared
  rw [← document.tags_rootContent] at named
  have root : Form.contentPieces ⟨⟨true, comments⟩, listed⟩ (shownBy set) (.outermost set.isSome)
        document.rootPosition document.rootContent =
      Form.contentPieces ⟨⟨false, comments⟩, others⟩ (shownBy set) (.outermost set.isSome)
        document.rootPosition document.rootContent :=
    contentPieces_coincide names.default named nothing
  have miscs : Form.miscPieces ⟨⟨true, comments⟩, listed⟩ = Form.miscPieces ⟨⟨false, comments⟩, others⟩ :=
    miscPieces_congr_comments rfl
  unfold Document.rootContent at root
  unfold Form.octets Form.text Form.pieces
  rw [miscs, root]

end Coincidence

/-- With a list that names `#default` and every prefix that is declared in the document, the exclusive and the
inclusive method give the same octets for the whole document, and for every set of its nodes if no element
of it has an attribute in the `xml` namespace. -/
theorem exclusive_coincides_with_inclusive {listed : List String} {document : Document}
    (names : NamesAll listed document) (comments : Bool) (others : List String) :
    Form.octets ⟨⟨true, comments⟩, listed⟩ document none =
        Form.octets ⟨⟨false, comments⟩, others⟩ document none ∧
      Form.octets ⟨⟨true, comments⟩, listed⟩ document (some (NodeSet.all document)) =
        Form.octets ⟨⟨false, comments⟩, others⟩ document (some (NodeSet.all document)) ∧
      ((∀ tag ∈ document.root.tags, ∀ given ∈ tag.attributes, given.namespaceUri ≠ some xmlNamespace) →
        ∀ set, Form.octets ⟨⟨true, comments⟩, listed⟩ document (some set) =
          Form.octets ⟨⟨false, comments⟩, others⟩ document (some set)) := by
  have whole : Form.octets ⟨⟨true, comments⟩, listed⟩ document none =
      Form.octets ⟨⟨false, comments⟩, others⟩ document none := by
    apply octets_coincide names
    exact .inl ⟨fun _ _ _ => rfl, .inr rfl⟩
  refine ⟨whole, ?_, ?_⟩
  · rw [octets_all, octets_all, whole]
  · intro bare set
    apply octets_coincide names
    right
    intro tag member
    rw [document.tags_rootContent] at member
    apply List.filter_eq_nil_iff.mpr
    intro given inTag
    simpa using bare tag member given inTag

theorem exclusive_coincides_with_inclusive_taken_back :
    ∃ document set,
      Document.read? 4 "<a xmlns='u' xmlns:p='v'><p:b><c xmlns=''/></p:b></a>" = some document ∧
        Form.octets ⟨⟨true, false⟩, ["p", "#default"]⟩ document (some set) =
          Form.octets ⟨⟨false, false⟩, []⟩ document (some set) ∧
        Form.text ⟨⟨true, false⟩, ["p", "#default"]⟩ document (some set) =
          "<a xmlns=\"u\" xmlns:p=\"v\"><c xmlns=\"\"></c></a>" := by
  have checked : (Document.read? 4 "<a xmlns='u' xmlns:p='v'><p:b><c xmlns=''/></p:b></a>").any
      (fun document => NamesAll ["p", "#default"] document ∧
        (∀ tag ∈ document.root.tags, ∀ given ∈ tag.attributes, given.namespaceUri ≠ some xmlNamespace) ∧
        Form.text ⟨⟨true, false⟩, ["p", "#default"]⟩ document
          (some (NodeSet.select document (fun position _ => position ≠ 2))) =
            "<a xmlns=\"u\" xmlns:p=\"v\"><c xmlns=\"\"></c></a>") = true := by
    decide +kernel
  rcases (Option.any_eq_true _ _).mp checked with ⟨document, isRead, passes⟩
  rcases of_decide_eq_true passes with ⟨names, bare, written⟩
  exact ⟨document, _, isRead, (exclusive_coincides_with_inclusive names false []).2.2 bare _, written⟩

end SamlGate.Canonical
