import SamlGate.Proofs.Outcome
import SamlGate.Proofs.Xml.Sites
import SamlGate.Signature.Transform

/-!
What a list of transforms does to the nodes it begins with.

Taking out the signature works on nodes only and canonicalization ends in octets, so a list that can be
applied takes out the signature some number of times and then canonicalizes some number of times. Until the
first canonicalization the set loses nothing but the subtree of the signature.
-/

namespace SamlGate.Signature

open Xml Canonical Outcome

theorem applyAll_append_eq_ok_iff {front back : List Transform} {data result : Data} :
    applyAll (front ++ back) data = .ok result ↔
      ∃ passed, applyAll front data = .ok passed ∧ applyAll back passed = .ok result := by
  unfold applyAll
  rw [List.foldlM_append, bind_eq_ok_iff]

theorem applyAll_cons_eq_ok_iff {first : Transform} {rest : List Transform} {data result : Data} :
    applyAll (first :: rest) data = .ok result ↔
      ∃ passed, first.apply data = .ok passed ∧ applyAll rest passed = .ok result := by
  unfold applyAll
  rw [List.foldlM_cons, bind_eq_ok_iff]

theorem apply_withoutSignature_eq_ok_iff {position : Nat} {data result : Data} :
    (Transform.withoutSignature position).apply data = .ok result ↔
      ∃ document set site, data = .nodes document set ∧ document.site? position = some site ∧
        result = .nodes document (set.remove site) := by
  cases data with
  | nodes document set =>
      simp only [Transform.apply]
      cases found : document.site? position with
      | none =>
          simp [found]
      | some site =>
          simp [found, eq_comm]
  | octets content =>
      simp [Transform.apply]

private theorem exists_octets_of_apply_canonical {form : Form} {data result : Data}
    (applied : (Transform.canonical form).apply data = .ok result) :
    ∃ content, result = .octets content := by
  cases data with
  | nodes document set =>
      exact ⟨_, (Except.ok.inj applied).symm⟩
  | octets content =>
      simp only [Transform.apply] at applied
      cases decoded : Utf8.read content with
      | error fault =>
          rw [decoded] at applied
          cases applied
      | ok text =>
          rw [decoded] at applied
          obtain ⟨further, _, same⟩ := map_eq_ok_iff.mp applied
          exact ⟨further, same.symm⟩

/-! ### The shape of a list that can be applied -/

private theorem eq_map_canonical_of_applyAll_octets {transforms : List Transform} {content : Octets}
    {result : Data} (applied : applyAll transforms (.octets content) = .ok result) :
    ∃ forms : List Form, transforms = forms.map .canonical := by
  induction transforms generalizing content with
  | nil =>
      exact ⟨[], rfl⟩
  | cons first rest ih =>
      obtain ⟨passed, atFirst, afterFirst⟩ := applyAll_cons_eq_ok_iff.mp applied
      cases first with
      | withoutSignature position =>
          cases atFirst
      | canonical form =>
          obtain ⟨further, same⟩ := exists_octets_of_apply_canonical atFirst
          subst same
          obtain ⟨forms, allCanonical⟩ := ih afterFirst
          exact ⟨form :: forms, by rw [allCanonical]; rfl⟩

/-- A list that can be applied to nodes takes out the signature first and canonicalizes then. -/
theorem eq_replicate_append_of_applyAll_nodes {position : Nat} {transforms : List Transform}
    {document : Document} {set : NodeSet} {result : Data}
    (known : ∀ transform ∈ transforms,
      transform = .withoutSignature position ∨ ∃ form, transform = .canonical form)
    (applied : applyAll transforms (.nodes document set) = .ok result) :
    ∃ removals, ∃ forms : List Form,
      transforms = List.replicate removals (.withoutSignature position) ++ forms.map .canonical := by
  induction transforms generalizing set with
  | nil =>
      exact ⟨0, [], rfl⟩
  | cons first rest ih =>
      obtain ⟨passed, atFirst, afterFirst⟩ := applyAll_cons_eq_ok_iff.mp applied
      rcases known first (List.mem_cons_self ..) with removal | ⟨form, canonical⟩
      · subst removal
        obtain ⟨_, _, site, sameData, _, stillNodes⟩ := apply_withoutSignature_eq_ok_iff.mp atFirst
        cases sameData
        subst stillNodes
        obtain ⟨removals, forms, shape⟩ :=
          ih (fun transform member => known transform (List.mem_cons_of_mem _ member)) afterFirst
        exact ⟨removals + 1, forms, by rw [shape]; rfl⟩
      · subst canonical
        cases atFirst
        obtain ⟨forms, allCanonical⟩ := eq_map_canonical_of_applyAll_octets afterFirst
        exact ⟨0, form :: forms, by rw [allCanonical]; rfl⟩

private theorem Reference.mem_pipeline {reference : Reference} {position : Nat}
    {transforms : List Transform}
    (known : reference.pipeline position = .ok transforms) :
    ∀ transform ∈ transforms,
      transform = .withoutSignature position ∨ ∃ form, transform = .canonical form := by
  intro transform member
  obtain ⟨stated, _, named⟩ := exists_input_of_mem (mapM_eq_ok_iff.mp known) member
  unfold StatedMethod.transform at named
  split at named
  · exact Or.inl (Except.ok.inj named).symm
  · split at named
    · exact Or.inr ⟨_, (Except.ok.inj named).symm⟩
    · cases named

/-! ### What is left of a set -/

def removed (signature : Site) (set : NodeSet) : (removals : Nat) → NodeSet
  | 0 => set
  | removals + 1 => (removed signature set removals).remove signature

theorem has_removed (signature : Site) (set : NodeSet) (removals position : Nat) :
    (removed signature set removals).has position = true ↔
      set.has position = true ∧
        (0 < removals → ¬ (signature.position ≤ position ∧ position < signature.stop)) := by
  induction removals with
  | zero =>
      simp [removed]
  | succ removals ih =>
      rw [removed, NodeSet.has_remove, Bool.and_eq_true, ih]
      simp only [Bool.not_eq_true', Bool.and_eq_false_iff, decide_eq_false_iff_not, Nat.succ_pos,
        forall_const, not_and_or]
      constructor
      · rintro ⟨⟨belongs, _⟩, outside⟩
        exact ⟨belongs, outside⟩
      · rintro ⟨belongs, outside⟩
        exact ⟨⟨belongs, fun _ => outside⟩, outside⟩

/-- Taking out a signature that stands in the document can always be done again. -/
theorem applyAll_replicate_withoutSignature {document : Document} {signature : Site}
    (stands : document.site? signature.position = some signature) (set : NodeSet) (removals : Nat) :
    applyAll (List.replicate removals (.withoutSignature signature.position)) (.nodes document set) =
      .ok (.nodes document (removed signature set removals)) := by
  induction removals with
  | zero =>
      rfl
  | succ removals ih =>
      rw [List.replicate_succ', applyAll_append_eq_ok_iff]
      refine ⟨_, ih, applyAll_cons_eq_ok_iff.mpr ⟨_, ?_, rfl⟩⟩
      exact apply_withoutSignature_eq_ok_iff.mpr ⟨document, _, signature, rfl, stands, rfl⟩

/-- A pipeline that can be applied to nodes of a document hands the rest of the nodes, with the signature
taken out some number of times, to the canonicalizations it ends with. -/
theorem applyAll_pipeline_eq_ok_iff {reference : Reference} {transforms : List Transform}
    {document : Document} {signature : Site} {set : NodeSet} {result : Data}
    (known : reference.pipeline signature.position = .ok transforms)
    (stands : document.site? signature.position = some signature) :
    applyAll transforms (.nodes document set) = .ok result ↔
      ∃ removals, ∃ forms : List Form,
        transforms = List.replicate removals (.withoutSignature signature.position) ++
          forms.map .canonical ∧
        applyAll (forms.map .canonical) (.nodes document (removed signature set removals)) =
          .ok result := by
  constructor
  · intro applied
    obtain ⟨removals, forms, shape⟩ :=
      eq_replicate_append_of_applyAll_nodes (Reference.mem_pipeline known) applied
    refine ⟨removals, forms, shape, ?_⟩
    rw [shape] at applied
    obtain ⟨passed, front, back⟩ := applyAll_append_eq_ok_iff.mp applied
    rw [applyAll_replicate_withoutSignature stands] at front
    cases front
    exact back
  · rintro ⟨removals, forms, shape, back⟩
    rw [shape]
    exact applyAll_append_eq_ok_iff.mpr ⟨_, applyAll_replicate_withoutSignature stands set removals, back⟩

end SamlGate.Signature
