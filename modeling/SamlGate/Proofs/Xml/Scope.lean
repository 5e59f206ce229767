import Mathlib.Data.List.Nodup
import SamlGate.Proofs.Outcome
import SamlGate.Proofs.Xml.Markup
import SamlGate.Xml.Scope

/-!
Scopes, and what makes a tag valid.

The scope inside an element means what its own declarations say, and for every other prefix what the scope
around it says. A tag that is read has the meaning that its scope gives its name and its attributes.

Two rules of namespaces are not checked when a tag is read: no prefix may be bound to the empty namespace,
and the default namespace may be declared once in a tag. A scope that keeps them conforms.
-/

namespace SamlGate.Xml

open Outcome

namespace Scope

/-! ### Looking up -/

theorem lookup?_cons (binding : PrefixBinding) (scope : Scope) (nsPrefix : String) :
    lookup? (binding :: scope) nsPrefix =
      if binding.nsPrefix = nsPrefix then some binding.uri else lookup? scope nsPrefix := by
  unfold lookup?
  by_cases same : binding.nsPrefix = nsPrefix
  · simp [same]
  · simp [same]

theorem lookup?_append (own outer : Scope) (nsPrefix : String) :
    lookup? (own ++ outer) nsPrefix = (lookup? own nsPrefix).or (lookup? outer nsPrefix) := by
  induction own with
  | nil =>
      rfl
  | cons binding own ih =>
      rw [List.cons_append, lookup?_cons, lookup?_cons, ih]
      split
      · rfl
      · rfl

theorem exists_of_lookup?_eq_some {scope : Scope} {nsPrefix uri : String}
    (found : scope.lookup? nsPrefix = some uri) :
    ∃ binding ∈ scope, binding.nsPrefix = nsPrefix ∧ binding.uri = uri := by
  unfold lookup? at found
  obtain ⟨binding, atBinding, same⟩ := Option.map_eq_some_iff.mp found
  refine ⟨binding, List.mem_of_find?_eq_some atBinding, ?_, same⟩
  simpa using List.find?_some atBinding

theorem lookup?_eq_none_iff {scope : Scope} {nsPrefix : String} :
    scope.lookup? nsPrefix = none ↔ nsPrefix ∉ scope.map PrefixBinding.nsPrefix := by
  unfold lookup?
  simp [List.find?_eq_none]

theorem lookup?_of_elementNamespace? {scope : Scope} {name : QName} {namespaceUri : Option String}
    (means : scope.elementNamespace? name = some namespaceUri) :
    scope.lookup? name.nsPrefix = namespaceUri := by
  unfold elementNamespace? at means
  split at means
  · rename_i uri bound
    cases means
    exact bound
  · rename_i unbound
    split at means
    · cases means
      exact unbound
    · cases means

private theorem lookup?_others (taken : List String) (scope : Scope) (nsPrefix : String) :
    lookup? (others taken scope) nsPrefix =
      if nsPrefix ∈ taken then none else lookup? scope nsPrefix := by
  induction scope generalizing taken with
  | nil =>
      simp [others, lookup?]
  | cons binding scope ih =>
      unfold others
      by_cases known : binding.nsPrefix ∈ taken
      · rw [if_pos known, ih, lookup?_cons]
        by_cases within : nsPrefix ∈ taken
        · rw [if_pos within, if_pos within]
        · rw [if_neg within, if_neg within, if_neg]
          rintro rfl
          exact within known
      · rw [if_neg known, lookup?_cons, lookup?_cons, ih]
        by_cases same : binding.nsPrefix = nsPrefix
        · subst same
          rw [if_pos rfl, if_pos rfl, if_neg known]
        · simp [same, Ne.symm same]

theorem lookup?_within (own outer : Scope) (nsPrefix : String) :
    lookup? (within own outer) nsPrefix = lookup? (own ++ outer) nsPrefix := by
  unfold within
  cases own with
  | nil =>
      rfl
  | cons binding own =>
      simp only [List.isEmpty_cons, Bool.false_eq_true, if_false]
      rw [lookup?_append, lookup?_append, lookup?_others]
      split
      · rename_i declared
        cases found : lookup? (binding :: own) nsPrefix with
        | none =>
            exact absurd declared (lookup?_eq_none_iff.mp found)
        | some uri =>
            rfl
      · rfl

/-! ### Members -/

private theorem mem_of_mem_others {taken : List String} {scope : Scope} {binding : PrefixBinding}
    (member : binding ∈ others taken scope) : binding ∈ scope ∧ binding.nsPrefix ∉ taken := by
  induction scope generalizing taken with
  | nil =>
      cases member
  | cons first scope ih =>
      unfold others at member
      split at member
      · obtain ⟨among, untaken⟩ := ih member
        exact ⟨List.mem_cons_of_mem _ among, untaken⟩
      · rename_i untaken
        rcases List.mem_cons.mp member with same | later
        · subst same
          exact ⟨List.mem_cons_self, untaken⟩
        · obtain ⟨among, untakenToo⟩ := ih later
          exact ⟨List.mem_cons_of_mem _ among, fun known => untakenToo (List.mem_cons_of_mem _ known)⟩

private theorem mem_of_mem_within {own outer : Scope} {binding : PrefixBinding}
    (member : binding ∈ within own outer) : binding ∈ own ∨ binding ∈ outer := by
  unfold within at member
  split at member
  · exact Or.inr member
  · rcases List.mem_append.mp member with here | there
    · exact Or.inl here
    · exact Or.inr (mem_of_mem_others there).1

private theorem nodup_others (taken : List String) (scope : Scope) :
    ((others taken scope).map PrefixBinding.nsPrefix).Nodup := by
  induction scope generalizing taken with
  | nil =>
      exact List.nodup_nil
  | cons first scope ih =>
      unfold others
      split
      · exact ih taken
      · rw [List.map_cons, List.nodup_cons]
        refine ⟨?_, ih _⟩
        intro again
        obtain ⟨binding, member, same⟩ := List.mem_map.mp again
        exact (mem_of_mem_others member).2 (same ▸ List.mem_cons_self)

end Scope

/-! ### Conforming scopes -/

/-- What reading does not check of a scope: each prefix is bound once, and none but the empty prefix to the
empty namespace. -/
structure Scope.Conforms (scope : Scope) : Prop where
  distinct : (scope.map PrefixBinding.nsPrefix).Nodup
  bound : ∀ binding ∈ scope, binding.uri = "" → binding.nsPrefix = ""

instance (scope : Scope) : Decidable scope.Conforms :=
  decidable_of_iff
    ((scope.map PrefixBinding.nsPrefix).Nodup ∧ ∀ binding ∈ scope, binding.uri = "" → binding.nsPrefix = "")
    ⟨fun both => ⟨both.1, both.2⟩, fun conforms => ⟨conforms.distinct, conforms.bound⟩⟩

theorem Scope.Conforms.nil : Scope.Conforms [] :=
  ⟨List.nodup_nil, by simp⟩

theorem Scope.Conforms.ne_empty_of_lookup? {scope : Scope} {nsPrefix uri : String}
    (conforms : scope.Conforms) (prefixed : nsPrefix ≠ "") (bound : scope.lookup? nsPrefix = some uri) :
    uri ≠ "" := by
  obtain ⟨binding, member, samePrefix, sameUri⟩ := Scope.exists_of_lookup?_eq_some bound
  intro unbound
  rw [← sameUri] at unbound
  exact prefixed (samePrefix ▸ conforms.bound binding member unbound)

theorem Scope.Conforms.within {own outer : Scope} (ownConforms : own.Conforms)
    (outerConforms : outer.Conforms) : (Scope.within own outer).Conforms := by
  refine ⟨?_, ?_⟩
  · unfold Scope.within
    split
    · exact outerConforms.distinct
    · rw [List.map_append]
      refine List.Nodup.append ownConforms.distinct (Scope.nodup_others _ _) ?_
      intro nsPrefix inOwn inOthers
      obtain ⟨binding, member, same⟩ := List.mem_map.mp inOthers
      exact (Scope.mem_of_mem_others member).2 (same ▸ inOwn)
  · intro binding member unbound
    rcases Scope.mem_of_mem_within member with here | there
    · exact ownConforms.bound binding here unbound
    · exact outerConforms.bound binding there unbound

/-! ### Valid tags -/

/-- What is checked of a binding when it is declared. -/
structure PrefixBinding.Valid (binding : PrefixBinding) : Prop where
  front : binding.nsPrefix = "" ∨ IsPart binding.nsPrefix
  permitted : Permitted binding.uri.toList
  notOfDeclarations : binding.uri ≠ xmlnsNamespace
  notBuiltIn : binding.uri ≠ xmlNamespace
  notXml : binding.nsPrefix ≠ "xml"

structure Attribute.ValidIn (scope : Scope) (given : Attribute) : Prop where
  name : given.name.Valid
  value : Permitted given.value.toList
  notPrefixed : given.name.nsPrefix ≠ "xmlns"
  notDeclaration : given.name.localName ≠ "xmlns"
  means : scope.attributeNamespace? given.name = some given.namespaceUri

structure Tag.Valid (tag : Tag) : Prop where
  name : tag.name.Valid
  notPrefixed : tag.name.nsPrefix ≠ "xmlns"
  means : tag.scope.elementNamespace? tag.name = some tag.namespaceUri
  attributes : ∀ given ∈ tag.attributes, given.ValidIn tag.scope
  distinct : (tag.attributes.map Attribute.meaning).Nodup
  bindings : ∀ binding ∈ tag.scope, binding.Valid

theorem WrittenAttribute.binding?_eq_none_iff {written : WrittenAttribute} :
    written.binding? = none ↔ written.name.nsPrefix ≠ "xmlns" ∧ written.name.localName ≠ "xmlns" := by
  unfold WrittenAttribute.binding?
  by_cases prefixed : written.name.nsPrefix = "xmlns"
  · simp [prefixed]
  · by_cases declaration : written.name.localName = "xmlns"
    · simp [prefixed, declaration]
    · simp [prefixed, declaration]

private theorem WrittenAttribute.valid_of_binding? {written : WrittenAttribute} {binding : PrefixBinding}
    (valid : written.Valid) (declares : written.binding? = some binding) :
    (binding.nsPrefix = "" ∨ IsPart binding.nsPrefix) ∧ Permitted binding.uri.toList := by
  unfold WrittenAttribute.binding? at declares
  split at declares
  · cases declares
    exact ⟨Or.inr valid.name.back, valid.value⟩
  · split at declares
    · cases declares
      exact ⟨Or.inl rfl, valid.value⟩
    · cases declares

theorem Scope.valid_of_ofWritten? {written : List WrittenAttribute} {own : Scope}
    (valid : ∀ given ∈ written, given.Valid) (declares : Scope.ofWritten? written = some own) :
    ∀ binding ∈ own, binding.Valid := by
  unfold Scope.ofWritten? at declares
  simp only at declares
  split at declares
  · rename_i allowed
    cases declares
    intro binding member
    obtain ⟨declared, notBuiltIn⟩ := List.mem_filter.mp member
    rw [decide_eq_true_eq] at notBuiltIn
    obtain ⟨given, among, declaring⟩ := List.mem_filterMap.mp declared
    obtain ⟨front, permitted⟩ := WrittenAttribute.valid_of_binding? (valid given among) declaring
    have isAllowed : binding.isAllowed = true := List.all_eq_true.mp allowed.1 binding declared
    unfold PrefixBinding.isAllowed at isAllowed
    simp only [Bool.and_eq_true, decide_eq_true_eq, beq_iff_eq, decide_eq_decide] at isAllowed
    exact ⟨front, permitted, isAllowed.1, notBuiltIn, fun xml => notBuiltIn (isAllowed.2.mp xml)⟩
  · cases declares

theorem Tag.valid_of_ofWritten? {outer : Scope} {name : QName} {written : List WrittenAttribute} {tag : Tag}
    (outerValid : ∀ binding ∈ outer, binding.Valid) (nameValid : name.Valid)
    (writtenValid : ∀ given ∈ written, given.Valid)
    (isRead : Tag.ofWritten? outer name written = some tag) : tag.Valid := by
  unfold Tag.ofWritten? at isRead
  obtain ⟨own, declares, afterScope⟩ := Option.bind_eq_some_iff.mp isRead
  obtain ⟨namespaceUri, means, afterName⟩ := Option.bind_eq_some_iff.mp afterScope
  obtain ⟨attributes, given, checked⟩ := Option.bind_eq_some_iff.mp afterName
  split at checked
  · rename_i passes
    cases checked
    refine ⟨nameValid, passes.1, means, ?_, passes.2, ?_⟩
    · intro held member
      obtain ⟨written, among, gives⟩ := exists_input_of_mem (mapM_eq_some_iff.mp given) member
      obtain ⟨inTag, noBinding⟩ := List.mem_filter.mp among
      obtain ⟨notPrefixed, notDeclaration⟩ :=
        WrittenAttribute.binding?_eq_none_iff.mp (Option.isNone_iff_eq_none.mp noBinding)
      obtain ⟨uri, meansToo, same⟩ := Option.map_eq_some_iff.mp gives
      subst same
      have valid := writtenValid written inTag
      exact ⟨valid.name, valid.value, notPrefixed, notDeclaration, meansToo⟩
    · intro binding member
      rcases Scope.mem_of_mem_within member with here | there
      · exact Scope.valid_of_ofWritten? writtenValid declares binding here
      · exact outerValid binding there
  · cases checked

end SamlGate.Xml
