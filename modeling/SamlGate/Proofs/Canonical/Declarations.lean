import SamlGate.Proofs.Canonical.Order
import SamlGate.Proofs.Canonical.Pieces
import SamlGate.Proofs.Xml.Validity

/-!
Canonical start tags keep the meaning of a tag.

The declarations of a canonical start tag, together with those around it in the output, bind every prefix
that the tag uses as the scope of the tag does. So the start tag is read as a tag of the same name in the
same namespace and with the same attributes. This needs a faithful tag: the output knows one binding of each
prefix, and cannot bind a prefix to the empty namespace.
-/

namespace SamlGate.Canonical

open Xml Outcome

/-! ### The namespace in force -/

private theorem inForce?_cons (binding : PrefixBinding) (scope : Scope) (nsPrefix : String)
    (once : nsPrefix = binding.nsPrefix → nsPrefix ∉ scope.map PrefixBinding.nsPrefix) :
    inForce? (binding :: scope) nsPrefix =
      if binding.nsPrefix = nsPrefix then (if binding.uri = "" then none else some binding.uri)
      else inForce? scope nsPrefix := by
  unfold inForce?
  by_cases same : binding.nsPrefix = nsPrefix
  · have noneLeft : scope.filter
        (fun binding => binding.nsPrefix = nsPrefix && binding.uri ≠ "") = [] := by
      rw [List.filter_eq_nil_iff]
      intro other member
      have different : other.nsPrefix ≠ nsPrefix := by
        intro samePrefix
        exact once same.symm (List.mem_map.mpr ⟨other, member, samePrefix⟩)
      simp [different]
    by_cases unbound : binding.uri = ""
    · rw [List.filter_cons_of_neg (by simp [unbound]), noneLeft, if_pos same, if_pos unbound]
      rfl
    · rw [List.filter_cons_of_pos (by simp [same, unbound]), noneLeft, if_pos same, if_neg unbound]
      rfl
  · rw [List.filter_cons_of_neg (by simp [same]), if_neg same]

theorem inForce?_eq {scope : Scope} (conforms : scope.Conforms) (nsPrefix : String) :
    inForce? scope nsPrefix = (scope.lookup? nsPrefix).filter (fun uri => uri ≠ "") := by
  have distinct := conforms.distinct
  clear conforms
  induction scope with
  | nil =>
      rfl
  | cons binding scope ih =>
      obtain ⟨notAgain, distinctRest⟩ := List.nodup_cons.mp distinct
      rw [inForce?_cons binding scope nsPrefix (fun same => same ▸ notAgain), Scope.lookup?_cons,
        ih distinctRest]
      by_cases same : binding.nsPrefix = nsPrefix
      · rw [if_pos same, if_pos same]
        by_cases unbound : binding.uri = ""
        · simp [unbound, Option.filter]
        · simp [unbound, Option.filter]
      · rw [if_neg same, if_neg same]

/-! ### Faithful tags -/

def usedPrefixes (tag : Tag) : List String :=
  tag.name.nsPrefix :: attributePrefixes tag

/-- The bindings in force, which canonical text shows, give the names of a tag the namespaces that they have.
The empty default namespace is none. -/
structure Faithful (tag : Tag) : Prop where
  prefixed : ∀ nsPrefix ∈ usedPrefixes tag, nsPrefix ≠ "" →
    inForce? tag.scope nsPrefix = tag.scope.lookup? nsPrefix
  unprefixed : tag.name.nsPrefix = "" →
    (inForce? tag.scope "").getD "" = (tag.scope.lookup? "").getD ""

instance (tag : Tag) : Decidable (Faithful tag) :=
  decidable_of_iff
    ((∀ nsPrefix ∈ usedPrefixes tag, nsPrefix ≠ "" →
        inForce? tag.scope nsPrefix = tag.scope.lookup? nsPrefix) ∧
      (tag.name.nsPrefix = "" → (inForce? tag.scope "").getD "" = (tag.scope.lookup? "").getD ""))
    ⟨fun both => ⟨both.1, both.2⟩, fun faithful => ⟨faithful.prefixed, faithful.unprefixed⟩⟩

theorem faithful_of_conforms {tag : Tag} (conforms : tag.scope.Conforms) : Faithful tag := by
  refine ⟨fun nsPrefix _ prefixed => ?_, fun _ => ?_⟩
  · rw [inForce?_eq conforms]
    cases bound : tag.scope.lookup? nsPrefix with
    | none =>
        rfl
    | some uri =>
        simp [Option.filter, conforms.ne_empty_of_lookup? prefixed bound]
  · rw [inForce?_eq conforms]
    cases tag.scope.lookup? "" with
    | none =>
        rfl
    | some uri =>
        by_cases unbound : uri = ""
        · simp [Option.filter, unbound]
        · simp [Option.filter, unbound]

theorem exists_of_inForce?_eq_some {scope : Scope} {nsPrefix uri : String}
    (found : inForce? scope nsPrefix = some uri) :
    ∃ binding ∈ scope, binding.nsPrefix = nsPrefix ∧ binding.uri = uri ∧ uri ≠ "" := by
  unfold inForce? at found
  obtain ⟨binding, atLast, same⟩ := Option.map_eq_some_iff.mp found
  obtain ⟨member, kept⟩ := List.mem_filter.mp (List.mem_of_getLast? atLast)
  simp only [Bool.and_eq_true, decide_eq_true_eq] at kept
  exact ⟨binding, member, kept.1, same, same ▸ kept.2⟩

/-! ### The declarations of a start tag -/

theorem declaration?_eq_some {declared scope : Scope} {nsPrefix : String} {binding : PrefixBinding}
    (found : declaration? declared scope nsPrefix = some binding) :
    binding.nsPrefix = nsPrefix ∧
      (inForce? scope nsPrefix = some binding.uri ∨
        inForce? scope nsPrefix = none ∧ nsPrefix = "" ∧ binding.uri = "") := by
  unfold declaration? at found
  split at found
  · rename_i uri inForce
    split at found
    · cases found
    · cases found
      exact ⟨rfl, Or.inl inForce⟩
  · rename_i notInForce
    split at found
    · rename_i takenBack
      cases found
      exact ⟨takenBack.1.symm, Or.inr ⟨notInForce, takenBack.1, rfl⟩⟩
    · cases found

private theorem lookup?_filterMap_declaration? (declared scope : Scope) (nsPrefixes : List String)
    (nsPrefix : String) :
    Scope.lookup? (nsPrefixes.filterMap (declaration? declared scope)) nsPrefix =
      if nsPrefix ∈ nsPrefixes then (declaration? declared scope nsPrefix).map PrefixBinding.uri
      else none := by
  induction nsPrefixes with
  | nil =>
      rfl
  | cons first rest ih =>
      cases found : declaration? declared scope first with
      | none =>
          rw [List.filterMap_cons_none found, ih]
          by_cases same : nsPrefix = first
          · subst same
            simp [found]
          · simp [same]
      | some binding =>
          have ofFirst := (declaration?_eq_some found).1
          rw [List.filterMap_cons_some found, Scope.lookup?_cons, ofFirst, ih]
          by_cases same : nsPrefix = first
          · subst same
            simp [found]
          · simp [same, Ne.symm same]

theorem lookup?_append_declarations (form : Form) (declared : Scope) (tag : Tag) (nsPrefix : String)
    (notBuiltIn : nsPrefix ≠ "xml") :
    Scope.lookup? (form.declarations declared tag ++ declared) nsPrefix =
      if nsPrefix ∈ form.candidates tag then
        ((declaration? declared tag.scope nsPrefix).map PrefixBinding.uri).or (declared.lookup? nsPrefix)
      else declared.lookup? nsPrefix := by
  rw [Scope.lookup?_append, Form.declarations, lookup?_filterMap_declaration?]
  by_cases candidate : nsPrefix ∈ form.candidates tag
  · rw [if_pos candidate, if_pos]
    rw [List.mem_filter, mem_distinct]
    exact ⟨candidate, by simpa using notBuiltIn⟩
  · rw [if_neg candidate, if_neg, Option.none_or]
    rw [List.mem_filter, mem_distinct]
    exact fun listed => candidate listed.1

/-- A prefix whose declaration is due means in the output what is in force for it. -/
theorem lookup?_declarations {form : Form} {declared : Scope} {tag : Tag} {nsPrefix : String}
    (due : nsPrefix ∈ form.candidates tag) (notBuiltIn : nsPrefix ≠ "xml") :
    (∀ uri, inForce? tag.scope nsPrefix = some uri →
        Scope.lookup? (form.declarations declared tag ++ declared) nsPrefix = some uri) ∧
      (inForce? tag.scope nsPrefix = none → nsPrefix = "" →
        (Scope.lookup? (form.declarations declared tag ++ declared) nsPrefix).getD "" = "") := by
  have output : Scope.lookup? (form.declarations declared tag ++ declared) nsPrefix =
      ((declaration? declared tag.scope nsPrefix).map PrefixBinding.uri).or
        (declared.lookup? nsPrefix) := by
    rw [lookup?_append_declarations form declared tag nsPrefix notBuiltIn, if_pos due]
  rw [output]
  constructor
  · intro uri inForce
    unfold declaration?
    rw [inForce]
    by_cases known : declared.lookup? nsPrefix = some uri
    · simp [known]
    · simp [known]
  · intro notInForce isDefault
    subst isDefault
    unfold declaration?
    rw [notInForce]
    by_cases takenBack : (declared.lookup? "").getD "" = ""
    · simp [takenBack]
    · simp [takenBack]

theorem valid_of_mem_declarations {form : Form} {declared : Scope} {tag : Tag} {binding : PrefixBinding}
    (valid : tag.Valid) (member : binding ∈ form.declarations declared tag) :
    binding.Valid ∧ (binding.uri = "" → binding.nsPrefix = "") := by
  unfold Form.declarations at member
  obtain ⟨nsPrefix, _, found⟩ := List.mem_filterMap.mp member
  obtain ⟨ofPrefix, inForce | ⟨_, isDefault, unbound⟩⟩ := declaration?_eq_some found
  · obtain ⟨source, inScope, samePrefix, sameUri, notEmpty⟩ := exists_of_inForce?_eq_some inForce
    have same : binding = source := by
      obtain ⟨sourcePrefix, sourceUri⟩ := source
      obtain ⟨bindingPrefix, bindingUri⟩ := binding
      simp only at samePrefix sameUri ofPrefix
      rw [samePrefix, sameUri, ofPrefix]
    rw [same]
    refine ⟨valid.bindings source inScope, fun unbound => ?_⟩
    rw [sameUri] at unbound
    exact absurd unbound notEmpty
  · obtain ⟨bindingPrefix, bindingUri⟩ := binding
    simp only at ofPrefix unbound
    subst ofPrefix unbound isDefault
    refine ⟨⟨Or.inl rfl, by simp [Permitted], ?_, ?_, by decide⟩, fun _ => rfl⟩
    · decide
    · decide

theorem nodup_declarations (form : Form) (declared : Scope) (tag : Tag) :
    ((form.declarations declared tag).map PrefixBinding.nsPrefix).Nodup := by
  have prefixes (nsPrefixes : List String) :
      ((nsPrefixes.filterMap (declaration? declared tag.scope)).map PrefixBinding.nsPrefix).Sublist
        nsPrefixes := by
    induction nsPrefixes with
    | nil =>
        exact List.Sublist.refl _
    | cons first rest ih =>
        cases found : declaration? declared tag.scope first with
        | none =>
            rw [List.filterMap_cons_none found]
            exact ih.cons first
        | some binding =>
            rw [List.filterMap_cons_some found, List.map_cons, (declaration?_eq_some found).1]
            exact ih.cons_cons first
  exact (prefixes _).nodup ((nodup_distinct (form.candidates tag)).filter _)

theorem conforms_declarations {form : Form} {declared : Scope} {tag : Tag} (valid : tag.Valid) :
    Scope.Conforms (form.declarations declared tag) :=
  ⟨nodup_declarations form declared tag,
    fun _ member => (valid_of_mem_declarations valid member).2⟩

end SamlGate.Canonical
