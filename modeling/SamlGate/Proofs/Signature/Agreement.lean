import SamlGate.Proofs.Canonical.Subtree
import SamlGate.Proofs.Canonical.WholeDocument
import SamlGate.Proofs.Signature.Enveloped
import SamlGate.Proofs.Xml.Pruning

/-!
What a signature holds beside its statement.

The octets that a reference digests, once the signature is taken out, are those of the document around the
signature, and the octets of the statement are those of the statement. So two documents that agree around
their signatures give the same octets for both, wherever in them the nodes are counted.
-/

namespace SamlGate.Signature

open Xml Canonical Outcome

/-! ### Taking out, once or more -/

/-- It does not matter how often the signature is taken out, if it is at all. -/
theorem octets_removed {document : Document} {signature : Site} {set : NodeSet} {removals : Nat}
    (taken : 0 < removals) (form : Form) :
    form.octets document (some (removed signature set removals)) =
      form.octets document (some (set.remove signature)) := by
  apply octets_congr
  intro position
  rw [Bool.eq_iff_iff, has_removed, NodeSet.has_remove]
  simp [taken, -not_and, not_and_or]

private theorem applyAll_canonical_congr {document other : Document} {set setToo : NodeSet}
    {forms : List Form}
    {data : Data}
    (same : ∀ form : Form, form.octets document (some set) = form.octets other (some setToo))
    (applied : applyAll (forms.map .canonical) (.nodes document set) = .ok data) :
    ∃ dataToo, applyAll (forms.map .canonical) (.nodes other setToo) = .ok dataToo ∧
      dataToo.toOctets = data.toOctets := by
  cases forms with
  | nil =>
      cases applied
      exact ⟨.nodes other setToo, rfl, (same _).symm⟩
  | cons form forms =>
      obtain ⟨passed, atFirst, afterFirst⟩ := applyAll_cons_eq_ok_iff.mp applied
      cases atFirst
      refine ⟨data, applyAll_cons_eq_ok_iff.mpr ⟨_, ?_, afterFirst⟩, rfl⟩
      exact congrArg (fun octets => Except.ok (Data.octets octets)) (same form).symm

private theorem withoutSignature_mem_pipeline {reference : Reference} {position : Nat}
    {transforms : List Transform}
    (listed : withoutSignatureUri ∈ reference.transforms.map StatedMethod.algorithm)
    (known : reference.pipeline position = .ok transforms) :
    Transform.withoutSignature position ∈ transforms := by
  obtain ⟨stated, member, isUri⟩ := List.mem_map.mp listed
  obtain ⟨transform, among, named⟩ := exists_input_of_mem (mapM_eq_ok_iff.mp known).flip member
  rw [StatedMethod.transform, if_pos isUri] at named
  cases named
  exact among

private theorem DigestsRoot.removals_pos {document : Document} {signature : Site} {reference : Reference}
    {uri : String} (digests : DigestsRoot document signature reference uri)
    (listed : withoutSignatureUri ∈ reference.transforms.map StatedMethod.algorithm) :
    0 < digests.removals := by
  have member := withoutSignature_mem_pipeline listed digests.pipeline
  rcases List.mem_append.mp member with removal | canonical
  · exact Nat.pos_of_ne_zero (List.mem_replicate.mp removal).1
  · obtain ⟨_, _, impossible⟩ := List.mem_map.mp canonical
    cases impossible

/-! ### Documents that agree around their signatures -/

/-- The documents are the same but for what is in their signatures, which stand at one position, and the second
has no tags but those of the first. -/
structure AgreesAround (document other : Document) (position : Nat) (element elementToo : Element) :
    Prop where
  child : ⟨position, .element element⟩ ∈ document.rootSite.children
  childToo : ⟨position, .element elementToo⟩ ∈ other.rootSite.children
  around : other.without position = document.without position
  tag : elementToo.tag = element.tag
  fewer : other.root.tags.Sublist document.root.tags

section Agreement

variable {document other : Document} {position : Nat} {element elementToo : Element}

private theorem AgreesAround.rootTag (agrees : AgreesAround document other position element elementToo) :
    other.root.tag = document.root.tag :=
  congrArg (fun rest => rest.root.tag) agrees.around

/-- Fewer tags carry fewer identifiers, so what was unique stays unique. -/
theorem AgreesAround.namesRoot {uri : String}
    (agrees : AgreesAround document other position element elementToo) (names : NamesRoot document uri) :
    NamesRoot other uri := by
  have fewer : (other.nodes.flatMap Node.identifiers).Sublist (document.nodes.flatMap Node.identifiers) := by
    rw [Document.flatMap_identifiers, Document.flatMap_identifiers]
    exact agrees.fewer.flatMap Tag.identifiers
  have distinct := names.distinct.sublist fewer
  refine ⟨distinct, names.names.imp_right ?_⟩
  intro named
  obtain ⟨value, isFragment, carries, _⟩ := named
  rw [← agrees.rootTag] at carries
  refine ⟨value, isFragment, carries, List.count_eq_one_of_mem distinct ?_⟩
  exact List.mem_flatMap.mpr
    ⟨.element other.root, List.mem_of_getElem? other.getElem?_nodes_rootPosition, carries⟩

/-- What is left without the signature has the same octets, and so has what the transforms make of it. -/
theorem AgreesAround.digestsRoot {reference : Reference} {uri : String}
    (agrees : AgreesAround document other position element elementToo)
    (listed : withoutSignatureUri ∈ reference.transforms.map StatedMethod.algorithm)
    (digests : DigestsRoot document ⟨position, .element element⟩ reference uri) :
    Nonempty (DigestsRoot other ⟨position, .element elementToo⟩ reference uri) := by
  have stands := Document.site?_of_mem_children agrees.child
  have standsToo := Document.site?_of_mem_children agrees.childToo
  have taken := digests.removals_pos listed
  have below : document.rootPosition < position :=
    (Content.getElem?_nodes_of_mem_sites agrees.child).1
  have belowToo : other.rootPosition < position :=
    (Content.getElem?_nodes_of_mem_sites agrees.childToo).1
  have sameOctets (form : Form) :
      form.octets document
          (some (removed ⟨position, .element element⟩ (selected document uri) digests.removals)) =
        form.octets other
          (some (removed ⟨position, .element elementToo⟩ (selected other uri) digests.removals)) := by
    rw [octets_removed taken, octets_removed taken, Form.octets, Form.octets,
      text_remove_eq_text_without (Document.has_of_site? stands) (Nat.ne_of_gt below),
      text_remove_eq_text_without (Document.has_of_site? standsToo) (Nat.ne_of_gt belowToo), agrees.around]
  have canonicalized := digests.canonicalized
  have isLeft := (digests.stages digests.removals (Nat.le_refl _)).1
  rw [applyAll_replicate_withoutSignature stands] at isLeft
  rw [← Except.ok.inj isLeft] at canonicalized
  obtain ⟨dataToo, canonicalizedToo, sameData⟩ := applyAll_canonical_congr sameOctets canonicalized
  refine ⟨⟨digests.removals, digests.forms, digests.pipeline,
    removed ⟨position, .element elementToo⟩ (selected other uri), ?_, dataToo, canonicalizedToo,
    digests.algorithm, digests.expected, digests.known, digests.decodes, ?_⟩⟩
  · intro done _
    exact ⟨applyAll_replicate_withoutSignature standsToo _ done, keepsRoot_removed other _ uri done⟩
  · rw [sameData]
    exact digests.matching

private theorem AgreesAround.octets_statement {place placeToo : Nat} {info : Element}
    (agrees : AgreesAround document other position element elementToo)
    (states : ⟨place, .element info⟩ ∈ (⟨position, .element element⟩ : Site).children)
    (statesToo : ⟨placeToo, .element info⟩ ∈ (⟨position, .element elementToo⟩ : Site).children)
    (form : Form) :
    form.octets other (some (NodeSet.treeWithoutComments other ⟨placeToo, .element info⟩)) =
      form.octets document (some (NodeSet.treeWithoutComments document ⟨place, .element info⟩)) := by
  rw [Form.octets, Form.octets, text_of_grandchild agrees.child states,
    text_of_grandchild agrees.childToo statesToo, agrees.tag, agrees.rootTag]

theorem AgreesAround.signsInfo {signature signatureToo : Embedded} {key : VerificationKey}
    {place placeToo : Nat} {info : Element}
    (agrees : AgreesAround document other position element elementToo)
    (states : ⟨place, .element info⟩ ∈ (⟨position, .element element⟩ : Site).children)
    (statesToo : ⟨placeToo, .element info⟩ ∈ (⟨position, .element elementToo⟩ : Site).children)
    (signs : SignsInfo document signature ⟨place, .element info⟩ key)
    (sameInfo : signatureToo.signedInfo = signature.signedInfo)
    (sameValue : signatureToo.value = signature.value) :
    Nonempty (SignsInfo other signatureToo ⟨placeToo, .element info⟩ key) := by
  refine ⟨⟨?_, signs.value, ?_, signs.method, ?_, signs.canonicalization, ?_, ?_⟩⟩
  · rw [sameValue]
    exact signs.nonempty
  · rw [sameValue]
    exact signs.decodes
  · rw [sameInfo]
    exact signs.known
  · rw [sameInfo]
    exact signs.knownCanonicalization
  · rw [sameInfo, agrees.octets_statement states statesToo]
    exact signs.verifies

end Agreement

end SamlGate.Signature
