import SamlGate.Proofs.Canonical.Openings
import SamlGate.Proofs.Canonical.TakenOver
import SamlGate.Proofs.Outcome

/-!
The order on canonical start tags.

Declarations are sorted by their prefix alone and attributes by their names alone, so a start tag says nothing
about its origin only if no two of them rank alike. That is so in a document that conforms to the rules of
namespaces: a prefix is declared once on a start tag, and two attributes of one local name are in different
namespaces, also where some of them are taken over from the elements around.

Being in order, declarations are known by their members. So those of an inclusive method are what is in force and
not declared already, behind the default namespace where that is taken back.
-/

namespace SamlGate.Canonical

open Xml

/-! ### Declarations -/

theorem ascending_declarations (form : Form) (declared : Scope) (tag : Tag) :
    (form.declarations declared tag).Pairwise (fun left right => left.nsPrefix < right.nsPrefix) := by
  unfold Form.declarations
  apply List.pairwise_filterMap.mpr
  apply ((ascending_distinct (form.candidates tag)).filter _).imp
  intro left right below binding found other foundToo
  rw [(declaration?_eq_some found).1, (declaration?_eq_some foundToo).1]
  exact below

/-- Declarations in ascending order are known by their members. -/
theorem eq_of_ascending {bindings others : List PrefixBinding}
    (ascending : bindings.Pairwise (fun left right => left.nsPrefix < right.nsPrefix))
    (ascendingToo : others.Pairwise (fun left right => left.nsPrefix < right.nsPrefix))
    (same : ∀ binding, binding ∈ bindings ↔ binding ∈ others) : bindings = others := by
  have nodup {items : List PrefixBinding}
      (sorted : items.Pairwise (fun left right => left.nsPrefix < right.nsPrefix)) : items.Nodup := by
    apply sorted.imp
    intro left right below equal
    rw [equal] at below
    exact String.lt_irrefl _ below
  apply List.Perm.eq_of_pairwise _ ascending ascendingToo
  · exact (List.perm_ext_iff_of_nodup (nodup ascending) (nodup ascendingToo)).mpr same
  · intro left right _ _ below above
    exact absurd above (String.lt_asymm below)

/-! ### Declarations of inclusive methods -/

private theorem ascending_bindingsInForce (scope : Scope) :
    (bindingsInForce scope).Pairwise (fun left right => left.nsPrefix < right.nsPrefix) := by
  unfold bindingsInForce
  apply List.pairwise_filterMap.mpr
  apply (ascending_distinct (scope.map PrefixBinding.nsPrefix)).imp
  intro left right below binding found other foundToo
  obtain ⟨_, _, rfl⟩ := Option.map_eq_some_iff.mp found
  obtain ⟨_, _, rfl⟩ := Option.map_eq_some_iff.mp foundToo
  exact below

theorem mem_bindingsInForce_iff {scope : Scope} {binding : PrefixBinding} :
    binding ∈ bindingsInForce scope ↔ inForce? scope binding.nsPrefix = some binding.uri := by
  unfold bindingsInForce
  rw [List.mem_filterMap]
  constructor
  · intro listed
    obtain ⟨nsPrefix, _, found⟩ := listed
    obtain ⟨uri, inForce, rfl⟩ := Option.map_eq_some_iff.mp found
    exact inForce
  · intro inForce
    obtain ⟨source, inScope, samePrefix, _⟩ := exists_of_inForce?_eq_some inForce
    refine ⟨binding.nsPrefix, mem_distinct.mpr (List.mem_map.mpr ⟨source, inScope, samePrefix⟩), ?_⟩
    rw [inForce]
    rfl

/-- The empty default namespace, where the output declares another and none is in force. -/
def takenBack (declared scope : Scope) : List PrefixBinding :=
  if inForce? scope "" = none ∧ (declared.lookup? "").getD "" ≠ "" then [⟨"", ""⟩] else []

theorem mem_takenBack_iff {declared scope : Scope} {binding : PrefixBinding} :
    binding ∈ takenBack declared scope ↔
      inForce? scope "" = none ∧ (declared.lookup? "").getD "" ≠ "" ∧ binding = ⟨"", ""⟩ := by
  unfold takenBack
  split
  · rename_i due
    simp [due]
  · rename_i notDue
    simp only [List.not_mem_nil, false_iff]
    exact fun due => notDue ⟨due.1, due.2.1⟩

theorem declaration?_eq_some_iff {declared scope : Scope} {binding : PrefixBinding} :
    declaration? declared scope binding.nsPrefix = some binding ↔
      binding ∈ takenBack declared scope ∨
        inForce? scope binding.nsPrefix = some binding.uri ∧
          declared.lookup? binding.nsPrefix ≠ some binding.uri := by
  rw [mem_takenBack_iff]
  obtain ⟨nsPrefix, uri⟩ := binding
  unfold declaration?
  cases inForce : inForce? scope nsPrefix with
  | none =>
      by_cases isDefault : nsPrefix = ""
      · subst isDefault
        by_cases empty : uri = ""
        · subst empty
          simp [inForce]
        · simp [empty, Ne.symm empty]
      · simp [isDefault]
  | some bound =>
      have notTakenBack : ¬ (inForce? scope "" = none ∧ (declared.lookup? "").getD "" ≠ "" ∧
          (⟨nsPrefix, uri⟩ : PrefixBinding) = ⟨"", ""⟩) := by
        rintro ⟨noDefault, _, same⟩
        cases same
        rw [noDefault] at inForce
        cases inForce
      rw [or_iff_right notTakenBack]
      by_cases same : bound = uri
      · subst same
        simp
      · simp [same]

/-- An inclusive method declares all bindings in force that the output does not have already, after the default
namespace if that is taken back. -/
theorem declarations_eq_of_inclusive {form : Form} (inclusive : form.method.exclusive = false)
    (declared : Scope) {tag : Tag} (valid : tag.Valid) :
    form.declarations declared tag =
      takenBack declared tag.scope ++ (bindingsInForce tag.scope).filter
        (fun binding => declared.lookup? binding.nsPrefix ≠ some binding.uri) := by
  apply eq_of_ascending (ascending_declarations _ _ _)
  · refine List.pairwise_append.mpr ⟨?_, (ascending_bindingsInForce _).filter _, ?_⟩
    · unfold takenBack
      split
      · exact List.pairwise_singleton _ _
      · exact .nil
    · intro default isTakenBack binding listed
      obtain ⟨noDefault, _, rfl⟩ := mem_takenBack_iff.mp isTakenBack
      have inForce := mem_bindingsInForce_iff.mp (List.mem_filter.mp listed).1
      have prefixed : binding.nsPrefix ≠ "" := by
        intro isDefault
        rw [isDefault, noDefault] at inForce
        cases inForce
      exact (lt_or_lt_of_ne (Ne.symm prefixed)).resolve_right (not_lt_empty _)
  · intro binding
    have candidate (due : binding ∈ takenBack declared tag.scope ∨
        inForce? tag.scope binding.nsPrefix = some binding.uri) :
        binding.nsPrefix ∈ form.candidates tag ∧ binding.nsPrefix ≠ "xml" := by
      rw [Form.candidates, inclusive, if_neg Bool.false_ne_true, List.mem_cons]
      rcases due with isTakenBack | inForce
      · obtain ⟨_, _, rfl⟩ := mem_takenBack_iff.mp isTakenBack
        exact ⟨.inl rfl, by decide⟩
      · obtain ⟨source, inScope, samePrefix, _⟩ := exists_of_inForce?_eq_some inForce
        rw [← samePrefix]
        exact ⟨.inr (List.mem_map_of_mem inScope), (valid.bindings source inScope).notXml⟩
    rw [mem_declarations_iff, declaration?_eq_some_iff, List.mem_append, List.mem_filter,
      mem_bindingsInForce_iff, decide_eq_true_eq, ← and_assoc, and_iff_right_iff_imp]
    exact fun due => candidate (due.imp_right And.left)

/-! ### Attributes -/

private theorem namespaceUri_ne_empty {scope : Scope} {given : Attribute} (conforms : scope.Conforms)
    (valid : given.ValidIn scope) : given.namespaceUri ≠ some "" := by
  intro isEmpty
  have means := valid.means
  rw [isEmpty] at means
  unfold Scope.attributeNamespace? at means
  split at means
  · cases means
  · rename_i prefixed
    split at means
    · exact absurd means (by decide)
    · rcases Option.map_eq_some_iff.mp means with ⟨uri, bound, same⟩
      exact conforms.ne_empty_of_lookup? prefixed bound (Option.some.inj same)

private theorem precedes_or_precedes {left right : Field}
    (different : (left.namespaceUri, left.localName) ≠ (right.namespaceUri, right.localName)) :
    left.precedes right = true ∨ right.precedes left = true := by
  simp only [Field.precedes, Bool.or_eq_true, Bool.and_eq_true, decide_eq_true_eq]
  by_cases same : left.namespaceUri = right.namespaceUri
  · have locals : left.localName ≠ right.localName := by
      intro sameLocal
      exact different (Prod.ext same sameLocal)
    cases lt_or_lt_of_ne locals with
    | inl below =>
        exact .inl (.inr ⟨same, below⟩)
    | inr above =>
        exact .inr (.inr ⟨same.symm, above⟩)
  · cases lt_or_lt_of_ne same with
    | inl below =>
        exact .inl (.inl below)
    | inr above =>
        exact .inr (.inl above)

private theorem apart_ownFields {tag : Tag} (valid : tag.Valid) (conforms : tag.scope.Conforms) :
    Apart Field.precedes (tag.attributes.map Field.ofAttribute) := by
  unfold Apart
  rw [List.pairwise_map]
  apply (List.pairwise_map.mp valid.distinct).imp_of_mem
  intro left right inLeft inRight different
  apply precedes_or_precedes
  intro same
  have sameUri : left.namespaceUri.getD "" = right.namespaceUri.getD "" := (Prod.mk.inj same).1
  have sameLocal : left.name.localName = right.name.localName := (Prod.mk.inj same).2
  have leftNotEmpty := namespaceUri_ne_empty conforms (valid.attributes left inLeft)
  have rightNotEmpty := namespaceUri_ne_empty conforms (valid.attributes right inRight)
  apply different
  unfold Attribute.meaning
  rw [sameLocal]
  congr 1
  -- No namespace and the empty one are written alike, but the latter does not occur.
  cases leftUri : left.namespaceUri with
  | none =>
      cases rightUri : right.namespaceUri with
      | none =>
          rfl
      | some uri =>
          rw [leftUri, rightUri] at sameUri
          rw [rightUri, ← show "" = uri from sameUri] at rightNotEmpty
          exact absurd rfl rightNotEmpty
  | some uri =>
      cases rightUri : right.namespaceUri with
      | none =>
          rw [leftUri, rightUri] at sameUri
          rw [leftUri, show uri = "" from sameUri] at leftNotEmpty
          exact absurd rfl leftNotEmpty
      | some other =>
          rw [leftUri, rightUri] at sameUri
          rw [show uri = other from sameUri]

theorem fields_eq_arrange (form : Form) (surroundings : Surroundings) (tag : Tag) :
    form.fields surroundings tag =
      arrange Field.precedes ((completed form surroundings tag).attributes.map Field.ofAttribute) := by
  unfold Form.fields completed
  cases takes : form.takesOver surroundings with
  | true =>
      simp [inheritedFields_eq]
  | false =>
      simp

theorem apart_fields {form : Form} {surroundings : Surroundings} {tag : Tag} (valid : tag.Valid)
    (conforms : tag.scope.Conforms) (around : ∀ outer ∈ surroundings.ancestors, outer.Valid) :
    Apart Field.precedes ((completed form surroundings tag).attributes.map Field.ofAttribute) := by
  apply apart_ownFields (valid_completed form valid around)
  rw [completed_scope]
  exact conforms

/-! ### Start tags -/

/-- The declaration of the default namespace comes first and then those of prefixes, in the order of the
prefixes, and attributes without a namespace come before the others; of all these no two rank alike. -/
structure StartTag.InOrder (tag : StartTag) : Prop where
  declarations : ∃ default prefixed, tag.declarations = default ++ prefixed ∧ default.length ≤ 1 ∧
    (∀ binding ∈ default, binding.nsPrefix = "") ∧ (∀ binding ∈ prefixed, binding.nsPrefix ≠ "") ∧
    prefixed.Pairwise (fun left right => left.nsPrefix < right.nsPrefix)
  fields : ∃ plain qualified, tag.fields = plain ++ qualified ∧
    (∀ field ∈ plain, field.namespaceUri = "") ∧
    plain.Pairwise (fun left right => left.localName < right.localName) ∧
    (∀ field ∈ qualified, field.namespaceUri ≠ "") ∧
    qualified.Pairwise (fun left right => left.namespaceUri < right.namespaceUri ∨
      left.namespaceUri = right.namespaceUri ∧ left.localName < right.localName)

private theorem inOrder_startTag (form : Form) {surroundings : Surroundings} {tag : Tag} (valid : tag.Valid)
    (conforms : tag.scope.Conforms) (around : ∀ outer ∈ surroundings.ancestors, outer.Valid) :
    (form.startTag surroundings tag).InOrder := by
  constructor
  · rcases exists_append_of_pairwise (fun binding => decide (binding.nsPrefix = ""))
      (ascending_declarations form surroundings.declared tag) (by
        intro left right below isDefault
        rw [of_decide_eq_true isDefault] at below
        exact absurd below (not_lt_empty _))
      with ⟨default, prefixed, parts, areDefault, arePrefixed, ascending, ascendingToo⟩
    refine ⟨default, prefixed, parts, ?_, ?_, ?_, ascendingToo⟩
    · cases default with
      | nil =>
          exact Nat.zero_le 1
      | cons first rest =>
          cases rest with
          | nil =>
              exact Nat.le_refl 1
          | cons second rest =>
              have below := List.rel_of_pairwise_cons ascending (List.mem_cons_self (a := second))
              have isDefault := areDefault second (List.mem_cons_of_mem _ List.mem_cons_self)
              rw [of_decide_eq_true isDefault] at below
              exact absurd below (not_lt_empty _)
    · intro binding member
      exact of_decide_eq_true (areDefault binding member)
    · intro binding member
      exact of_decide_eq_false (arePrefixed binding member)
  · have ascending := ranks_precedes.ascending_arrange
      (@apart_fields form surroundings tag valid conforms around)
    rw [← fields_eq_arrange] at ascending
    rcases exists_append_of_pairwise (fun field => decide (field.namespaceUri = "")) ascending (by
        intro left right before isPlain
        simp only [Field.precedes, Bool.or_eq_true, Bool.and_eq_true, decide_eq_true_eq] at before
        rw [of_decide_eq_true isPlain] at before
        exact decide_eq_true (before.resolve_left (not_lt_empty _)).1)
      with ⟨plain, qualified, parts, arePlain, areQualified, ascendingPlain, ascendingQualified⟩
    refine ⟨plain, qualified, parts, ?_, ?_, ?_, ?_⟩
    · intro field member
      exact of_decide_eq_true (arePlain field member)
    · apply ascendingPlain.imp_of_mem
      intro left right _ inRight before
      simp only [Field.precedes, Bool.or_eq_true, Bool.and_eq_true, decide_eq_true_eq] at before
      rw [of_decide_eq_true (arePlain right inRight)] at before
      exact (before.resolve_left (not_lt_empty _)).2
    · intro field member
      exact of_decide_eq_false (areQualified field member)
    · apply ascendingQualified.imp
      intro left right before
      simpa [Field.precedes] using before

theorem WrittenFor.inOrder {form : Form} {subset : Bool} {shown : Nat → Bool} {standing : Standing}
    {opening : Nat × StartTag} (written : WrittenFor form subset shown standing opening)
    (valid : standing.here.tag.Valid) (conforms : standing.here.tag.scope.Conforms)
    (around : ∀ site ∈ standing.around, site.tag.Valid) : opening.2.InOrder := by
  obtain ⟨surroundings, surrounded, same⟩ := written.startTag
  rw [same]
  apply inOrder_startTag form valid conforms
  rw [surrounded.ancestors, List.forall_mem_map]
  exact around

theorem inOrder_of_mem_openings_pieces {document : Document} (valid : document.Valid)
    (conforms : ∀ tag ∈ document.root.tags, tag.scope.Conforms) (form : Form) (subset : Bool) (shown : Nat → Bool) :
    ∀ opening ∈ openings (form.pieces subset shown document), opening.2.InOrder := by
  intro opening member
  obtain ⟨standing, stands, written⟩ :=
    Outcome.exists_input_of_mem (openings_pieces_writtenFor form subset shown document) member
  have among := (List.mem_filter.mp stands).1
  obtain ⟨validHere, validAround⟩ := forall_mem_documentStandings valid.rootContent.tags standing among
  rw [← document.tags_rootContent] at conforms
  exact written.inOrder validHere (forall_mem_documentStandings conforms standing among).1 validAround

end SamlGate.Canonical
