import SamlGate.Proofs.Signature.Pipeline
import SamlGate.Proofs.Xml.Identifiers
import SamlGate.Signature.Verification

/-!
What a verified signature covers.

The reference of a signature that stands directly below the document element leads to the document element,
and until the nodes become octets nothing is lost of it but comments and the signature itself.
-/

namespace SamlGate.Signature

open Xml Canonical Outcome

/-! ### The reference -/

/-- The reference leads to the document element: it is empty, or names a value that identifies the document
element and nothing else. No value identifies two elements, or one element twice. -/
structure NamesRoot (document : Document) (uri : String) : Prop where
  distinct : (document.nodes.flatMap Node.identifiers).Nodup
  names : uri = "" ∨ ∃ value, uri = "#" ++ value ∧ value ∈ document.root.tag.identifiers ∧
    (document.nodes.flatMap Node.identifiers).count value = 1

def selected (document : Document) (uri : String) : NodeSet :=
  if uri = "" then NodeSet.allWithoutComments document
  else NodeSet.treeWithoutComments document document.rootSite

private theorem identifiers_subset {document : Document} {value : String}
    (carries : value ∈ document.root.tag.identifiers) :
    value ∈ document.nodes.flatMap Node.identifiers := by
  refine List.mem_flatMap.mpr ⟨.element document.root, ?_, carries⟩
  exact List.mem_of_getElem? document.getElem?_nodes_rootPosition

theorem select_eq_ok_iff {document : Document} {uri : String} {selection : Selection}
    (distinct : (document.nodes.flatMap Node.identifiers).Nodup) :
    document.select document.identifiers uri = .ok selection ∧
        selection.site.position = document.rootPosition ↔
      NamesRoot document uri ∧ selection = ⟨document.rootSite, selected document uri⟩ := by
  have distinctValues : (document.identifiers.map Identifier.value).Nodup := by
    rwa [Document.map_value_identifiers]
  unfold Document.select selected
  by_cases empty : uri = ""
  · rw [if_pos empty, if_pos empty]
    constructor
    · rintro ⟨same, _⟩
      exact ⟨⟨distinct, Or.inl empty⟩, (Except.ok.inj same).symm⟩
    · rintro ⟨_, same⟩
      subst same
      exact ⟨rfl, rfl⟩
  · rw [if_neg empty, if_neg empty]
    constructor
    · rintro ⟨follows, atRoot⟩
      split at follows
      · cases follows
      · rename_i value named
        obtain ⟨site, resolved, same⟩ := bind_eq_ok_iff.mp follows
        cases same
        obtain ⟨atPosition, carries⟩ := (Document.resolve_eq_ok_iff distinctValues).mp resolved
        obtain ⟨position, node⟩ := site
        simp only at atRoot atPosition carries
        subst atRoot
        rw [document.getElem?_nodes_rootPosition] at atPosition
        cases atPosition
        refine ⟨⟨distinct, Or.inr ⟨value, fragment?_eq_some_iff.mp named, carries, ?_⟩⟩, rfl⟩
        exact List.count_eq_one_of_mem distinct (identifiers_subset carries)
    · rintro ⟨⟨_, isEmpty | ⟨value, named, carries, _⟩⟩, same⟩
      · exact absurd isEmpty empty
      · subst same
        rw [fragment?_eq_some_iff.mpr named]
        refine ⟨bind_eq_ok_iff.mpr ⟨document.rootSite, ?_, rfl⟩, rfl⟩
        exact (Document.resolve_eq_ok_iff distinctValues).mpr
          ⟨document.getElem?_nodes_rootPosition, carries⟩

theorem singleReference_eq_ok_iff {signedInfo : SignedInfo} {reference : Reference} :
    signedInfo.singleReference = .ok reference ↔ signedInfo.references = [reference] := by
  unfold SignedInfo.singleReference
  rcases signedInfo.references with _ | ⟨first, _ | ⟨second, rest⟩⟩
  · simp
  · simp
  · simp

/-- A signature directly below the document element covers something exactly where its only reference
leads to the document element. -/
theorem coverage_eq_ok_iff {document : Document} {site : Site} {signedInfo : SignedInfo}
    {covered : Coverage} (child : site ∈ document.rootSite.children) :
    coverage document site signedInfo = .ok covered ↔
      signedInfo.references = [covered.reference] ∧ covered.reference.uri = some covered.uri ∧
        NamesRoot document covered.uri ∧
        covered.selection = ⟨document.rootSite, selected document covered.uri⟩ := by
  obtain ⟨reference, uri, selection⟩ := covered
  have holder := Document.holder?_of_mem_children child
  unfold coverage
  simp only [bind_eq_ok_iff, singleReference_eq_ok_iff, Document.identifierMap_eq_ok_iff,
    Document.map_value_identifiers]
  constructor
  · rintro ⟨identifiers, ⟨same, distinct⟩, stated, single, rest⟩
    subst same
    split at rest
    · cases rest
    · rename_i named hasUri
      obtain ⟨followed, follows, held⟩ := bind_eq_ok_iff.mp rest
      rw [holder] at held
      simp only at held
      split at held
      · rename_i atRoot
        cases held
        exact ⟨single, hasUri, (select_eq_ok_iff distinct).mp ⟨follows, atRoot⟩⟩
      · cases held
  · rintro ⟨single, hasUri, names, same⟩
    obtain ⟨follows, atRoot⟩ := (select_eq_ok_iff names.distinct).mpr ⟨names, same⟩
    refine ⟨document.identifiers, ⟨rfl, names.distinct⟩, reference, single, ?_⟩
    simp only [hasUri, bind_eq_ok_iff]
    refine ⟨selection, follows, ?_⟩
    simp only [holder, if_pos atRoot]

/-! ### The digest -/

/-- Nothing of the document element is missing from the set but comments and the subtree of the signature. -/
def KeepsRoot (document : Document) (signature : Site) (set : NodeSet) : Prop :=
  ∀ position node, document.nodes[position]? = some node →
    document.rootSite.position ≤ position → position < document.rootSite.stop →
    set.has position = false →
    node.isComment = true ∨ signature.position ≤ position ∧ position < signature.stop

theorem has_selected {document : Document} {uri : String} {position : Nat} {node : Node}
    (atPosition : document.nodes[position]? = some node)
    (afterStart : document.rootSite.position ≤ position)
    (beforeStop : position < document.rootSite.stop) :
    (selected document uri).has position = !node.isComment := by
  have within : position < document.size := by
    rw [← document.length_nodes]
    exact (List.getElem?_eq_some_iff.mp atPosition).1
  unfold selected
  split
  · rw [NodeSet.allWithoutComments, NodeSet.treeWithoutComments, NodeSet.has_select, atPosition]
    simp [Document.site, Site.stop, Node.size, within]
  · rw [NodeSet.treeWithoutComments, NodeSet.has_select, atPosition]
    simp [afterStart, beforeStop]

theorem keepsRoot_removed (document : Document) (signature : Site) (uri : String) (removals : Nat) :
    KeepsRoot document signature (removed signature (selected document uri) removals) := by
  intro position node atPosition afterStart beforeStop missing
  by_cases comment : node.isComment = true
  · exact Or.inl comment
  · have isSelected : (selected document uri).has position = true := by
      rw [has_selected atPosition afterStart beforeStop]
      simpa using comment
    have lost := (has_removed signature (selected document uri) removals position).not.mp (by
      rw [missing]
      exact Bool.false_ne_true)
    rw [not_and, Classical.not_imp, Classical.not_not] at lost
    exact Or.inr (lost isSelected).2

/-- How the octets that a reference digests come from the document element. The signature is taken out of
the selected nodes some number of times, all nodes that are left are handed on, and what the
canonicalizations make of them has the stated digest. -/
structure DigestsRoot (document : Document) (signature : Site) (reference : Reference) (uri : String)
    where
  removals : Nat
  forms : List Form
  pipeline : reference.pipeline signature.position =
    .ok (List.replicate removals (.withoutSignature signature.position) ++ forms.map .canonical)
  /-- The nodes that are left when the signature has been taken out so often. -/
  left : Nat → NodeSet
  stages : ∀ done, done ≤ removals →
    applyAll (List.replicate done (.withoutSignature signature.position))
        (.nodes document (selected document uri)) = .ok (.nodes document (left done)) ∧
      KeepsRoot document signature (left done)
  data : Data
  canonicalized : applyAll (forms.map .canonical) (.nodes document (left removals)) = .ok data
  algorithm : DigestAlgorithm
  expected : Octets
  known : DigestAlgorithm.ofUri reference.digestMethod = .ok algorithm
  decodes : decoded "DigestValue" reference.digestValue = .ok expected
  matching : algorithm.digest data.toOctets = expected

/-- The digest of a reference that leads to the document element is right exactly where it is the digest of
all that the transforms leave of the document element. -/
theorem check_eq_ok_iff {document : Document} {signature : Site} {reference : Reference} {uri : String}
    (stands : document.site? signature.position = some signature) :
    (⟨reference, uri, ⟨document.rootSite, selected document uri⟩⟩ : Coverage).check document signature =
        .ok () ↔
      Nonempty (DigestsRoot document signature reference uri) := by
  unfold Coverage.check Coverage.octets
  simp only [bind_eq_ok_iff]
  constructor
  · rintro ⟨octets, ⟨transforms, pipeline, data, applied, same⟩, algorithm, known, expected, decodes,
      matching⟩
    cases same
    obtain ⟨removals, forms, shape, canonicalized⟩ :=
      (applyAll_pipeline_eq_ok_iff pipeline stands).mp applied
    subst shape
    refine ⟨⟨removals, forms, pipeline, removed signature (selected document uri), ?_, data,
      canonicalized, algorithm, expected, known, decodes, ?_⟩⟩
    · intro done _
      exact ⟨applyAll_replicate_withoutSignature stands _ done,
        keepsRoot_removed document signature uri done⟩
    · split at matching
      · assumption
      · cases matching
  · rintro ⟨digests⟩
    refine ⟨digests.data.toOctets, ⟨_, digests.pipeline, digests.data, ?_, rfl⟩, digests.algorithm,
      digests.known, digests.expected, digests.decodes, if_pos digests.matching⟩
    exact applyAll_append_eq_ok_iff.mpr
      ⟨_, (digests.stages digests.removals (Nat.le_refl _)).1, digests.canonicalized⟩

/-! ### The value -/

structure SignsInfo (document : Document) (signature : Embedded) (info : Site) (key : VerificationKey)
    where
  nonempty : signature.value ≠ ""
  value : Octets
  decodes : decoded "SignatureValue" signature.value = .ok value
  method : SignatureMethod
  known : SignatureMethod.ofUri signature.signedInfo.signatureMethod = .ok method
  canonicalization : Method
  knownCanonicalization :
    Method.ofUri? signature.signedInfo.canonicalization.algorithm = some canonicalization
  verifies : method.verifies key.key
    (Form.octets ⟨canonicalization, signature.signedInfo.canonicalization.listed⟩ document
      (some (NodeSet.treeWithoutComments document info))) value = true

theorem checkValue_eq_ok_iff {document : Document} {signature : Embedded} {site info : Site}
    {key : VerificationKey}
    (first : site.childNamed? Namespaces.signature "SignedInfo" = some info) :
    (∃ octets, signedInfoOctets document site signature.signedInfo = .ok octets ∧
        signature.checkValue key octets = .ok ()) ↔
      Nonempty (SignsInfo document signature info key) := by
  unfold signedInfoOctets Embedded.checkValue
  rw [first]
  constructor
  · rintro ⟨octets, spelled, passes⟩
    split at passes
    · cases passes
    · rename_i nonempty
      obtain ⟨value, decodes, afterValue⟩ := bind_eq_ok_iff.mp passes
      obtain ⟨method, known, verdict⟩ := bind_eq_ok_iff.mp afterValue
      simp only at spelled
      split at spelled
      · cases spelled
      · rename_i canonicalization knownCanonicalization
        cases spelled
        refine ⟨⟨nonempty, value, decodes, method, known, canonicalization, knownCanonicalization, ?_⟩⟩
        split at verdict
        · assumption
        · cases verdict
  · rintro ⟨signs⟩
    simp only [signs.knownCanonicalization, if_neg signs.nonempty]
    refine ⟨_, rfl, bind_eq_ok_iff.mpr ⟨signs.value, signs.decodes, ?_⟩⟩
    exact bind_eq_ok_iff.mpr ⟨signs.method, signs.known, if_pos signs.verifies⟩

/-- A signature directly below the document element verifies exactly where its only reference leads to the
document element, the digest is right and the value verifies. -/
theorem verify_eq_ok_iff {document : Document} {signature : Embedded} {site info : Site}
    {key : VerificationKey} (child : site ∈ document.rootSite.children)
    (first : site.childNamed? Namespaces.signature "SignedInfo" = some info) :
    signature.verify key document site = .ok () ↔
      ∃ reference uri, signature.signedInfo.references = [reference] ∧ reference.uri = some uri ∧
        NamesRoot document uri ∧ Nonempty (DigestsRoot document site reference uri) ∧
        Nonempty (SignsInfo document signature info key) := by
  have stands := Document.site?_of_mem_children child
  unfold Embedded.verify
  rw [bind_eq_ok_iff]
  constructor
  · rintro ⟨⟨reference, uri, selection⟩, covers, rest⟩
    obtain ⟨single, hasUri, names, same⟩ := (coverage_eq_ok_iff child).mp covers
    simp only at single hasUri names same
    subst same
    obtain ⟨⟨⟩, digests, afterDigest⟩ := bind_eq_ok_iff.mp rest
    exact ⟨reference, uri, single, hasUri, names, (check_eq_ok_iff stands).mp digests,
      (checkValue_eq_ok_iff first).mp (bind_eq_ok_iff.mp afterDigest)⟩
  · rintro ⟨reference, uri, single, hasUri, names, digests, signs⟩
    refine ⟨⟨reference, uri, ⟨document.rootSite, selected document uri⟩⟩, ?_, ?_⟩
    · exact (coverage_eq_ok_iff child).mpr ⟨single, hasUri, names, rfl⟩
    · refine bind_eq_ok_iff.mpr ⟨(), (check_eq_ok_iff stands).mpr digests, ?_⟩
      exact bind_eq_ok_iff.mpr ((checkValue_eq_ok_iff first).mpr signs)

end SamlGate.Signature
