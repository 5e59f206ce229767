import SamlGate.Proofs.Login.Pinning
import SamlGate.Proofs.Signature.Coverage

/-!
What an accepted posted request has signed.

A posted request verifies only if the first signature directly below its document element covers the whole
of it, except comments and the signature itself, under the key that the service provider registered for
signing. No other signature, and no other element of the document, takes part in that.
-/

namespace SamlGate

open Xml Outcome Signature

/-- A signature that covers the document in which it stands. -/
structure CoveringSignature (provider : ServiceProvider) (document : Document) where
  position : Nat
  element : Element
  first : document.rootSite.childNamed? Namespaces.signature "Signature" =
    some ⟨position, .element element⟩
  signature : Embedded
  isRead : Embedded.ofElement element = .ok signature
  infoPosition : Nat
  info : Element
  firstInfo : (⟨position, .element element⟩ : Site).childNamed? Namespaces.signature "SignedInfo" =
    some ⟨infoPosition, .element info⟩
  infoIsRead : SignedInfo.read info = .ok signature.signedInfo
  referenceElement : Element
  onlyReference : info.childrenNamed Namespaces.signature "Reference" = [referenceElement]
  reference : Reference
  referenceIsRead : Reference.read referenceElement = .ok reference
  uri : String
  hasUri : referenceElement.tag.attribute? "URI" = some uri
  namesRoot : NamesRoot document uri
  digestsRoot : DigestsRoot document ⟨position, .element element⟩ reference uri
  certificate : String
  chosen : provider.signingCertificate = .ok certificate
  key : VerificationKey
  loaded : VerificationKey.ofText certificate = .ok key
  signsInfo : SignsInfo document signature ⟨infoPosition, .element info⟩ key

/-! ### Reading -/

theorem Signature.requiredPart_eq_ok_iff {element part : Element} {name : String} :
    requiredPart element name = .ok part ↔
      element.childNamed? Namespaces.signature name = some part := by
  unfold requiredPart
  cases element.childNamed? Namespaces.signature name with
  | none =>
      simp
  | some found =>
      simp

private theorem Signature.Embedded.signedInfo_of_ofElement {element : Element} {signature : Embedded}
    (isRead : Embedded.ofElement element = .ok signature) :
    ∃ info, element.childNamed? Namespaces.signature "SignedInfo" = some info ∧
      SignedInfo.read info = .ok signature.signedInfo := by
  unfold Embedded.ofElement at isRead
  obtain ⟨info, hasInfo, afterInfo⟩ := bind_eq_ok_iff.mp isRead
  obtain ⟨value, _, afterValue⟩ := bind_eq_ok_iff.mp afterInfo
  obtain ⟨stated, infoIsRead, same⟩ := bind_eq_ok_iff.mp afterValue
  cases same
  exact ⟨info, requiredPart_eq_ok_iff.mp hasInfo, infoIsRead⟩

private theorem Signature.SignedInfo.references_of_read {info : Element} {signedInfo : SignedInfo}
    (isRead : SignedInfo.read info = .ok signedInfo) :
    List.Forall₂ (fun element reference => Reference.read element = .ok reference)
      (info.childrenNamed Namespaces.signature "Reference") signedInfo.references := by
  unfold SignedInfo.read at isRead
  obtain ⟨_, _, afterMethod⟩ := bind_eq_ok_iff.mp isRead
  obtain ⟨_, _, afterSignature⟩ := bind_eq_ok_iff.mp afterMethod
  obtain ⟨references, read, afterReferences⟩ := bind_eq_ok_iff.mp afterSignature
  obtain ⟨_, _, afterStated⟩ := bind_eq_ok_iff.mp afterReferences
  obtain ⟨_, _, same⟩ := bind_eq_ok_iff.mp afterStated
  cases same
  exact mapM_eq_ok_iff.mp read

private theorem Signature.Reference.uri_of_read {element : Element} {reference : Reference}
    (isRead : Reference.read element = .ok reference) :
    reference.uri = element.tag.attribute? "URI" := by
  unfold Reference.read at isRead
  obtain ⟨_, _, afterTransforms⟩ := bind_eq_ok_iff.mp isRead
  obtain ⟨_, _, afterMethod⟩ := bind_eq_ok_iff.mp afterTransforms
  obtain ⟨_, _, afterValue⟩ := bind_eq_ok_iff.mp afterMethod
  obtain ⟨_, _, same⟩ := bind_eq_ok_iff.mp afterValue
  cases same
  rfl

theorem Signature.SignedInfo.references_eq_singleton_iff {info : Element} {signedInfo : SignedInfo}
    {reference : Reference} (isRead : SignedInfo.read info = .ok signedInfo) :
    signedInfo.references = [reference] ↔
      ∃ element, info.childrenNamed Namespaces.signature "Reference" = [element] ∧
        Reference.read element = .ok reference := by
  have related := SignedInfo.references_of_read isRead
  constructor
  · intro single
    rw [single, List.forall₂_cons_right_iff] at related
    obtain ⟨element, rest, atElement, noneLeft, elements⟩ := related
    rw [List.forall₂_nil_right_iff] at noneLeft
    subst noneLeft
    exact ⟨element, elements, atElement⟩
  · rintro ⟨element, only, atElement⟩
    rw [only, List.forall₂_cons_left_iff] at related
    obtain ⟨other, rest, atOther, noneLeft, references⟩ := related
    rw [List.forall₂_nil_left_iff] at noneLeft
    subst noneLeft
    rw [atElement] at atOther
    cases atOther
    exact references

/-! ### Verifying -/

theorem CoveringSignature.posted {provider : ServiceProvider} {document : Document}
    (covering : CoveringSignature provider document) :
    postedSignature? document =
      .ok (some ⟨⟨covering.position, .element covering.element⟩, covering.signature⟩) := by
  rcases postedSignature?_cases document with
    ⟨noSite, _, _⟩ | ⟨position, element, atSite, _, isPosted⟩
  · rw [covering.first] at noSite
    cases noSite
  · rw [covering.first] at atSite
    cases atSite
    rw [isPosted, covering.isRead]
    rfl

theorem CoveringSignature.single {provider : ServiceProvider} {document : Document}
    (covering : CoveringSignature provider document) :
    covering.signature.signedInfo.references = [covering.reference] :=
  (SignedInfo.references_eq_singleton_iff covering.infoIsRead).mpr
    ⟨covering.referenceElement, covering.onlyReference, covering.referenceIsRead⟩

/-- A document verifies exactly where it has a signature that covers it and carries no certificate but the
pinned one. -/
theorem verifyDocument_eq_ok_iff_covering {provider : ServiceProvider} {document : Document} :
    verifyDocument provider document = .ok () ↔
      ∃ covering : CoveringSignature provider document,
        trustStep provider covering.signature = .ok () := by
  rw [verifyDocument_eq_ok_iff]
  constructor
  · rintro ⟨posted, found, verifies⟩
    rcases postedSignature?_cases document with
      ⟨_, _, unsigned⟩ | ⟨position, element, atSite, _, isPosted⟩
    · rw [unsigned] at found
      cases found
    · rw [isPosted] at found
      obtain ⟨signature, isRead, same⟩ := map_eq_ok_iff.mp found
      cases same
      obtain ⟨trusted, key, hasKey, passes⟩ := PostedSignature.verify_eq_ok_iff.mp verifies
      obtain ⟨certificate, chosen, loaded⟩ := ServiceProvider.signingKey_eq_ok_iff.mp hasKey
      obtain ⟨info, hasInfo, infoIsRead⟩ := Embedded.signedInfo_of_ofElement isRead
      have child := Site.mem_children_of_childNamed? atSite
      rcases Site.childNamed?_cases position element Namespaces.signature "SignedInfo" with
        ⟨_, noElement⟩ | ⟨infoPosition, part, atInfo, isPart⟩
      · rw [noElement] at hasInfo
        cases hasInfo
      · rw [hasInfo] at isPart
        cases isPart
        obtain ⟨reference, uri, single, hasUri, namesRoot, ⟨digestsRoot⟩, ⟨signsInfo⟩⟩ :=
          (verify_eq_ok_iff child atInfo).mp passes
        obtain ⟨referenceElement, onlyReference, referenceIsRead⟩ :=
          (SignedInfo.references_eq_singleton_iff infoIsRead).mp single
        refine ⟨⟨position, element, atSite, signature, isRead, infoPosition, info, atInfo, infoIsRead,
          referenceElement, onlyReference, reference, referenceIsRead, uri, ?_, namesRoot, digestsRoot,
          certificate, chosen, key, loaded, signsInfo⟩, trusted⟩
        rw [← Reference.uri_of_read referenceIsRead]
        exact hasUri
  · rintro ⟨covering, trusted⟩
    have child := Site.mem_children_of_childNamed? covering.first
    refine ⟨⟨⟨covering.position, .element covering.element⟩, covering.signature⟩, covering.posted, ?_⟩
    refine PostedSignature.verify_eq_ok_iff.mpr ⟨trusted, covering.key, ?_, ?_⟩
    · exact ServiceProvider.signingKey_eq_ok_iff.mpr
        ⟨covering.certificate, covering.chosen, covering.loaded⟩
    · refine (verify_eq_ok_iff child covering.firstInfo).mpr ⟨covering.reference, covering.uri,
        covering.single, ?_, covering.namesRoot, ⟨covering.digestsRoot⟩, ⟨covering.signsInfo⟩⟩
      rw [Reference.uri_of_read covering.referenceIsRead]
      exact covering.hasUri

/-- A posted parameter verifies exactly where it spells a request that its own signature covers and that
carries no certificate but the pinned one. -/
theorem verifyForm_eq_ok_iff_covering (limits : Limits) (provider : ServiceProvider)
    (parameter : String) :
    verifyForm limits provider parameter = .ok () ↔
      ∃ text document, formDocument limits parameter = .ok text ∧
        AuthnRequest.readDocument limits text = .ok document ∧
        ∃ covering : CoveringSignature provider document,
          trustStep provider covering.signature = .ok () := by
  unfold verifyForm
  simp only [bind_eq_ok_iff, verifyDocument_eq_ok_iff_covering]
  constructor
  · rintro ⟨text, decodes, document, isRead, covers⟩
    exact ⟨text, document, decodes, isRead, covers⟩
  · rintro ⟨text, document, decodes, isRead, covers⟩
    exact ⟨text, decodes, document, isRead, covers⟩

end SamlGate
