import SamlGate.Proofs.Login.Characters
import SamlGate.Proofs.Login.Coverage
import SamlGate.Proofs.Login.Digested
import SamlGate.Proofs.Signature.Agreement

/-!
Key information that a request carries.

The key that verifies a request is the registered one, and what the request carries is only compared with it.
So all the key information can be deleted from the signature of a request that verifies: the request still
verifies, since nothing is left to be compared, and it says the same.
-/

namespace SamlGate

open Xml Canonical Outcome Signature

def Xml.Element.withoutKeyInformation (signature : Element) : Element :=
  ⟨signature.tag, signature.inner.lessNamed Namespaces.signature "KeyInfo"⟩

/-- The document less the key information in its signature, the first one directly below the document
element. -/
def Xml.Document.withoutKeyInformation (document : Document) : Document :=
  document.withInner
    (document.root.inner.changeFirst Namespaces.signature "Signature"
      (Content.lessNamed Namespaces.signature "KeyInfo"))

def TakesSignatureOut (document : Document) : Prop :=
  ∃ posted, postedSignature? document = .ok (some posted) ∧
    ∃ reference ∈ posted.signature.signedInfo.references,
      withoutSignatureUri ∈ reference.transforms.map StatedMethod.algorithm

/-! ### What is read without it -/

private theorem Xml.Element.childNamed?_withoutKeyInformation (signature : Element) {name : String}
    (other : name ≠ "KeyInfo") :
    signature.withoutKeyInformation.childNamed? Namespaces.signature name =
      signature.childNamed? Namespaces.signature name :=
  Element.childNamed?_lessNamed signature.tag signature.inner other

private theorem Signature.Embedded.ofElement_withoutKeyInformation {element : Element}
    {signature : Embedded}
    (isRead : Embedded.ofElement element = .ok signature) :
    Embedded.ofElement element.withoutKeyInformation = .ok { signature with certificates := none } := by
  have samePart (name : String) (other : name ≠ "KeyInfo") :
      requiredPart element.withoutKeyInformation name = requiredPart element name := by
    unfold requiredPart
    rw [Element.childNamed?_withoutKeyInformation element other]
  unfold Embedded.ofElement at isRead ⊢
  obtain ⟨info, hasInfo, afterInfo⟩ := bind_eq_ok_iff.mp isRead
  obtain ⟨value, hasValue, afterValue⟩ := bind_eq_ok_iff.mp afterInfo
  obtain ⟨stated, infoIsRead, same⟩ := bind_eq_ok_iff.mp afterValue
  cases same
  rw [samePart "SignedInfo" (by decide), samePart "SignatureValue" (by decide),
    Element.withoutKeyInformation, Element.childNamed?_lessNamed_self]
  exact bind_eq_ok_iff.mpr
    ⟨info, hasInfo, bind_eq_ok_iff.mpr ⟨value, hasValue, bind_eq_ok_iff.mpr ⟨stated, infoIsRead, rfl⟩⟩⟩

private theorem trustStep_of_certificates_eq_none {provider : ServiceProvider} {signature : Embedded}
    (none : signature.certificates = none) : trustStep provider signature = .ok () := by
  unfold trustStep pinningNecessary
  rw [Option.any_some, none]
  rfl

/-- A request says nothing in its signature. -/
theorem AuthnRequest.ofDocument_withoutKeyInformation (document : Document) :
    AuthnRequest.ofDocument document.withoutKeyInformation = AuthnRequest.ofDocument document := by
  have issuer : document.withoutKeyInformation.root.childNamed? Namespaces.assertion "Issuer" =
      document.root.childNamed? Namespaces.assertion "Issuer" :=
    Content.find?_elements_changeFirst (by decide)
  unfold AuthnRequest.ofDocument AuthnRequest.ofRoot
  rw [issuer]
  rfl

/-! ### The verification without it -/

section Covering

variable {provider : ServiceProvider} {document : Document}

theorem CoveringSignature.listed (covering : CoveringSignature provider document)
    (takesOut : TakesSignatureOut document) :
    withoutSignatureUri ∈ covering.reference.transforms.map StatedMethod.algorithm := by
  obtain ⟨posted, found, reference, member, listed⟩ := takesOut
  rw [covering.posted] at found
  cases found
  rw [covering.single] at member
  rw [List.mem_singleton.mp member] at listed
  exact listed

private theorem CoveringSignature.agreesAround (covering : CoveringSignature provider document) :
    document.withoutKeyInformation.rootSite.childNamed? Namespaces.signature "Signature" =
        some ⟨covering.position, .element covering.element.withoutKeyInformation⟩ ∧
      AgreesAround document document.withoutKeyInformation covering.position covering.element
        covering.element.withoutKeyInformation := by
  have changed := @Content.changeFirst_of_find? Namespaces.signature "Signature"
    (Content.lessNamed Namespaces.signature "KeyInfo") _ _ _ _ covering.first
  have first : document.withoutKeyInformation.rootSite.childNamed? Namespaces.signature "Signature" =
      some ⟨covering.position, .element covering.element.withoutKeyInformation⟩ := changed.1
  have around : document.withoutKeyInformation.without covering.position =
      document.without covering.position :=
    congrArg document.withInner changed.2
  have fewer : document.withoutKeyInformation.root.tags.Sublist document.root.tags :=
    (Content.tags_changeFirst_sublist Content.tags_lessNamed_sublist).cons_cons document.root.tag
  exact ⟨first, Site.mem_children_of_childNamed? covering.first, Site.mem_children_of_childNamed? first,
    around, rfl, fewer⟩

/-- The statement is found in what is left of the signature, though perhaps at another position. -/
theorem CoveringSignature.exists_place (covering : CoveringSignature provider document) :
    ∃ place, (⟨covering.position, .element covering.element.withoutKeyInformation⟩ : Site).childNamed?
      Namespaces.signature "SignedInfo" = some ⟨place, .element covering.info⟩ := by
  have stays := covering.element.childNamed?_withoutKeyInformation (show "SignedInfo" ≠ "KeyInfo" by decide)
  rcases Site.childNamed?_cases covering.position covering.element Namespaces.signature "SignedInfo" with
    ⟨noSite, _⟩ | ⟨_, _, atSite, atElement⟩
  · rw [covering.firstInfo] at noSite
    cases noSite
  · rw [covering.firstInfo] at atSite
    cases atSite
    rw [atElement] at stays
    rcases Site.childNamed?_cases covering.position covering.element.withoutKeyInformation
      Namespaces.signature "SignedInfo" with ⟨_, missing⟩ | ⟨place, _, found, isInfo⟩
    · rw [stays] at missing
      cases missing
    · rw [stays] at isInfo
      cases isInfo
      exact ⟨place, found⟩

/-- The covering signature covers the document also without its key information. -/
theorem CoveringSignature.exists_withoutKeyInformation (covering : CoveringSignature provider document)
    (takesOut : TakesSignatureOut document) :
    ∃ coveringToo : CoveringSignature provider document.withoutKeyInformation,
      coveringToo.signature.certificates = none := by
  obtain ⟨first, agrees⟩ := covering.agreesAround
  obtain ⟨place, firstInfo⟩ := covering.exists_place
  obtain ⟨digestsRoot⟩ := agrees.digestsRoot (covering.listed takesOut) covering.digestsRoot
  have signsToo : Nonempty (SignsInfo document.withoutKeyInformation
      { covering.signature with certificates := none } ⟨place, .element covering.info⟩ covering.key) :=
    agrees.signsInfo (Site.mem_children_of_childNamed? covering.firstInfo)
      (Site.mem_children_of_childNamed? firstInfo) covering.signsInfo rfl rfl
  obtain ⟨signsInfo⟩ := signsToo
  exact
    ⟨{ position := covering.position
       element := covering.element.withoutKeyInformation
       first := first
       signature := { covering.signature with certificates := none }
       isRead := Embedded.ofElement_withoutKeyInformation covering.isRead
       infoPosition := place
       info := covering.info
       firstInfo := firstInfo
       infoIsRead := covering.infoIsRead
       referenceElement := covering.referenceElement
       onlyReference := covering.onlyReference
       reference := covering.reference
       referenceIsRead := covering.referenceIsRead
       uri := covering.uri
       hasUri := covering.hasUri
       namesRoot := agrees.namesRoot covering.namesRoot
       digestsRoot := digestsRoot
       certificate := covering.certificate
       chosen := covering.chosen
       key := covering.key
       loaded := covering.loaded
       signsInfo := signsInfo }, rfl⟩

end Covering

/-- A request that verifies under a signature that is taken out before the digest still verifies when all the
key information is deleted from the signature, and is read as the same request. -/
theorem verifyDocument_withoutKeyInformation {provider : ServiceProvider} {document : Document}
    (verifies : verifyDocument provider document = .ok ()) (takesOut : TakesSignatureOut document) :
    verifyDocument provider document.withoutKeyInformation = .ok () ∧
      AuthnRequest.ofDocument document.withoutKeyInformation = AuthnRequest.ofDocument document := by
  obtain ⟨covering, _⟩ := verifyDocument_eq_ok_iff_covering.mp verifies
  obtain ⟨coveringToo, carriesNone⟩ := covering.exists_withoutKeyInformation takesOut
  refine ⟨?_, AuthnRequest.ofDocument_withoutKeyInformation document⟩
  exact verifyDocument_eq_ok_iff_covering.mpr
    ⟨coveringToo, trustStep_of_certificates_eq_none carriesNone⟩

/-! ### A request that carries another certificate -/

def keyedCertificate : List Char :=
  ["MIGEMHgCAQEwBQYDKgMEMAAwHhcNMjIwMTAxMDAw",
    "MDAwWhcNMjIwMTAxMDAwMDAwWjAAMEgwDQYJKoZI",
    "hvcNAQEBBQADNwAwNAIvALRx8l6KuWCGEqqIbTh1",
    "CddI2p6+R4OUHmzxSpM+H3Rz02ervBpYnyARZ1qH",
    "V2cCAQMwBQYDKgMEAwEA"].flatMap String.toList

/-- A provider whose first certificate is not the one that verifies. -/
def keyed : ServiceProvider where
  endpoints := [{ binding := .post, location := "https://sp.example.org/" }]
  keyDescriptors := [⟨some "encryption", ["A"]⟩, ⟨some "signing", [String.ofList keyedCertificate]⟩]

/-- A signed request of the provider with key information in two places. -/
def keyedRequest : List Char :=
  ["<p:AuthnRequest",
    " xmlns:p=\"urn:oasis:names:tc:SAML:2.0:protocol\"",
    " ID=\"a\" Version=\"2.0\" IssueInstant=\"t\">",
    "<Signature",
    " xmlns=\"http://www.w3.org/2000/09/xmldsig#\">",
    "<SignedInfo>",
    "<CanonicalizationMethod Algorithm=",
    "\"http://www.w3.org/2001/10/xml-exc-c14n#\"/>",
    "<SignatureMethod Algorithm=",
    "\"http://www.w3.org/2000/09/xmldsig#rsa-sha1\"/>",
    "<Reference URI=\"\">",
    "<Transforms>",
    "<Transform Algorithm=",
    "\"http://www.w3.org/2000/09/xmldsig#enveloped-signature\"/>",
    "</Transforms>",
    "<DigestMethod Algorithm=",
    "\"http://www.w3.org/2000/09/xmldsig#sha1\"/>",
    "<DigestValue>ICgcDVYgxFW+gWeS4Di8JmSiSQ4=</DigestValue>",
    "</Reference>",
    "</SignedInfo>",
    "<SignatureValue>",
    "q7rQ5TTiwGp/ZJ9BS5Fy2GtOdk6YoxyHyy6qqMLC",
    "KTtDrgEaaNF5B/lgPFo3lQ==",
    "</SignatureValue>",
    "<KeyInfo><X509Data>",
    "<X509Certificate>A</X509Certificate>",
    "</X509Data></KeyInfo>",
    "<KeyInfo Id=\"k\"/>",
    "</Signature>",
    "</p:AuthnRequest>"].flatMap String.toList

/-- The signature of the document carries the certificate, is taken out by its reference, passes the trust step
and verifies under the key. -/
def signsUnder (provider : ServiceProvider) (carried : String) (document : Document)
    (key : VerificationKey) : Bool :=
  match postedSignature? document with
  | .ok (some posted) =>
    decide (posted.signature.firstCertificate? = some carried ∧
      (∃ reference ∈ posted.signature.signedInfo.references,
        withoutSignatureUri ∈ reference.transforms.map StatedMethod.algorithm) ∧
      trustStep provider posted.signature = .ok () ∧
      posted.signature.verify key document posted.site = .ok ())
  | _ => false

private theorem keyedRequest_signsUnder :
    (documentOf? keyedRequest).any (fun document =>
      document.root.tag.isNamed Namespaces.protocol "AuthnRequest" &&
        (Base64.decodeOnto []
          ((Text.trimmed keyedCertificate).filter fun character => !Text.isAsciiBlank character)).any
            (fun octets =>
              (VerificationKey.ofOctets octets).toOption.any (signsUnder keyed "A" document))) = true := by
  unfold signsUnder
  simp only [Embedded.verify, signedInfoOctets, Form.octets, Form.text, Octets.ofText_ofList]
  decide +kernel

/-- The certificate in the request is the first of the provider, not the one that verifies, and without it the
request verifies as well. -/
theorem verifyDocument_withoutKeyInformation_keyed :
    ∃ document, AuthnRequest.readDocument {} (String.ofList keyedRequest) = .ok document ∧
      (∃ posted, postedSignature? document = .ok (some posted) ∧
        posted.signature.firstCertificate? = some "A") ∧
      verifyDocument keyed document = .ok () ∧ TakesSignatureOut document ∧
      verifyDocument keyed document.withoutKeyInformation = .ok () ∧
      AuthnRequest.ofDocument document.withoutKeyInformation = AuthnRequest.ofDocument document := by
  obtain ⟨document, spelled, checked⟩ := (Option.any_eq_true _ _).mp keyedRequest_signsUnder
  obtain ⟨named, hasKey⟩ := Bool.and_eq_true_iff.mp checked
  obtain ⟨key, keyOf, signs⟩ := VerificationKey.exists_ofText_ofList (by decide +kernel) hasKey
  have certificate : keyed.signingCertificate = .ok (String.ofList keyedCertificate) := rfl
  have registered := ServiceProvider.signingKey_eq_ok_iff.mpr ⟨_, certificate, keyOf⟩
  unfold signsUnder at signs
  split at signs
  · rename_i posted found
    obtain ⟨carries, takesOut, trusted, verifies⟩ := of_decide_eq_true signs
    have passes : verifyDocument keyed document = .ok () :=
      verifyDocument_eq_ok_iff.mpr
        ⟨posted, found, PostedSignature.verify_eq_ok_iff.mpr ⟨trusted, key, registered, verifies⟩⟩
    have takesSignatureOut : TakesSignatureOut document := ⟨posted, found, takesOut⟩
    have still := verifyDocument_withoutKeyInformation passes takesSignatureOut
    exact ⟨document, readDocument_ofList rfl spelled named, ⟨posted, found, carries⟩, passes,
      takesSignatureOut, still⟩
  · cases signs

end SamlGate
