import SamlGate.Login.PostedSignature
import SamlGate.Proofs.Outcome
import SamlGate.Proofs.Xml.Sites

/-!
The signature that a document carries.

A document carries the first signature directly below its root, or none. It is found by its position for the
verification and by its name for reading, and both ways lead to one element.
-/

namespace SamlGate

open Xml Outcome

theorem postedSignature?_cases (document : Document) :
    document.rootSite.childNamed? Namespaces.signature "Signature" = none ∧
        document.root.childNamed? Namespaces.signature "Signature" = none ∧
        postedSignature? document = .ok none ∨
      ∃ position element,
        document.rootSite.childNamed? Namespaces.signature "Signature" =
            some ⟨position, .element element⟩ ∧
          document.root.childNamed? Namespaces.signature "Signature" = some element ∧
          postedSignature? document =
            (Signature.Embedded.ofElement element).map
              (fun signature => some ⟨⟨position, .element element⟩, signature⟩) := by
  rcases Site.childNamed?_cases document.rootPosition document.root Namespaces.signature "Signature" with
    ⟨noSite, noElement⟩ | ⟨position, element, atSite, atElement⟩
  · refine Or.inl ⟨noSite, noElement, ?_⟩
    unfold postedSignature?
    rw [Document.rootSite, noSite]
  · refine Or.inr ⟨position, element, atSite, atElement, ?_⟩
    have named := Element.isNamed_of_childNamed? atElement
    unfold postedSignature?
    rw [Document.rootSite, atSite]
    simp [Signature.Embedded.read, named]

/-- A document has a signature that can be read, or none, exactly when the signature it carries has its
parts. -/
theorem exists_postedSignature?_eq_ok_iff (document : Document) :
    (∃ posted, postedSignature? document = .ok posted) ↔
      ∀ element, document.root.childNamed? Namespaces.signature "Signature" = some element →
        ∃ signature, Signature.Embedded.ofElement element = .ok signature := by
  rcases postedSignature?_cases document with
    ⟨_, noElement, unsigned⟩ | ⟨position, element, _, atElement, posted⟩
  · rw [unsigned, noElement]
    simp
  · rw [posted, atElement]
    constructor
    · rintro ⟨found, isRead⟩ child same
      cases same
      obtain ⟨signature, hasParts, _⟩ := map_eq_ok_iff.mp isRead
      exact ⟨signature, hasParts⟩
    · intro readable
      obtain ⟨signature, hasParts⟩ := readable element rfl
      exact ⟨some ⟨⟨position, .element element⟩, signature⟩, map_eq_ok_iff.mpr ⟨signature, hasParts, rfl⟩⟩

theorem Signature.Embedded.value_of_ofElement {element : Element} {signature : Signature.Embedded}
    (hasParts : Signature.Embedded.ofElement element = .ok signature) :
    ∃ value, element.childNamed? Namespaces.signature "SignatureValue" = some value ∧
      signature.value = Text.compact value.text := by
  unfold Signature.Embedded.ofElement at hasParts
  obtain ⟨info, _, afterInfo⟩ := bind_eq_ok_iff.mp hasParts
  obtain ⟨value, hasValue, afterValue⟩ := bind_eq_ok_iff.mp afterInfo
  obtain ⟨stated, _, same⟩ := bind_eq_ok_iff.mp afterValue
  cases same
  unfold Signature.requiredPart at hasValue
  split at hasValue
  · rename_i part found
    cases hasValue
    exact ⟨value, found, rfl⟩
  · cases hasValue

end SamlGate
