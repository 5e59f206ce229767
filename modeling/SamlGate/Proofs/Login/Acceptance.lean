import SamlGate.Login.Gate
import SamlGate.Proofs.Login.PostedSignature

/-!
What the gate lets through.

A request passes exactly when its parameters can be read, an answer has somewhere to go, its document says
what a login needs, and the signature of its own binding verifies wherever one is demanded. The last is the
case if the request carries a signature or one of the providers declares that requests are signed. What is
accepted says of itself what it was: the flag is the demand, the request is what the document says that the
parameter spells, and the endpoint is the one that is chosen for the carrier.
-/

namespace SamlGate

open Xml Outcome

/-! ### What is asked of a submission -/

def Submission.documentText (limits : Limits) (submission : Submission) : Except Failure String :=
  match submission.carrier with
  | .query => queryDocument limits submission.request submission.encoding
  | .form => formDocument limits submission.request

/-- The signature of a document, if there is one directly below its root, has the parts of a signature. -/
def SignatureReadable (document : Document) : Prop :=
  ∀ element, document.root.childNamed? Namespaces.signature "Signature" = some element →
    ∃ signature, Signature.Embedded.ofElement element = .ok signature

/-- The parameter of a submission spells the document. The signature in a posted document must be readable,
whether it is going to be verified or not. -/
structure Submission.Spells (limits : Limits) (submission : Submission) (document : Document) : Prop where
  decodes : ∃ text, submission.documentText limits = .ok text ∧
    AuthnRequest.readDocument limits text = .ok document
  readable : submission.carrier = .form → SignatureReadable document

/-- The value of the first signature directly below the root of a document, without blanks. -/
def signatureValue? (document : Document) : Option String :=
  (document.root.childNamed? Namespaces.signature "Signature").bind fun signature =>
    (signature.childNamed? Namespaces.signature "SignatureValue").map fun value =>
      Text.compact value.text

/-- The submission carries a signature that is not empty: in a parameter, or inside the document. -/
def Submission.Signed (submission : Submission) (document : Document) : Prop :=
  match submission.carrier with
  | .query => submission.signature ≠ ""
  | .form => ∃ value, signatureValue? document = some value ∧ value ≠ ""

/-- The three signs that demand verification. -/
def Demanded (service : ServiceProvider) (identity : IdentityProvider) (submission : Submission)
    (document : Document) : Prop :=
  submission.Signed document ∨ service.requestsSigned = "true" ∨ identity.wantsRequestsSigned = "true"

def Submission.verification (limits : Limits) (service : ServiceProvider) (submission : Submission) :
    Except Error Unit :=
  match submission.carrier with
  | .query =>
    verifyQuery limits service submission.request submission.relayState submission.signature
      submission.signatureAlgorithm
  | .form => verifyForm limits service submission.request

/-! ### The parts of the gate -/

theorem Submission.carrier_of_read {limits : Limits} {carrier : Carrier} {raw : String}
    {submission : Submission} (isRead : Submission.read limits carrier raw = .ok submission) :
    submission.carrier = carrier := by
  unfold Submission.read at isRead
  obtain ⟨parameters, _, rest⟩ := bind_eq_ok_iff.mp isRead
  dsimp only at rest
  split at rest
  · cases rest
  · obtain ⟨_, _, same⟩ := bind_eq_ok_iff.mp rest
    cases same
    rfl

theorem exists_chooseEndpoint?_eq_some {endpoints : List Endpoint} (present : endpoints ≠ [])
    (binding : Binding) : ∃ endpoint, chooseEndpoint? endpoints binding = some endpoint := by
  apply Option.ne_none_iff_exists'.mp
  exact mt chooseEndpoint?_eq_none_iff.mp present

theorem declaredSigned_iff (service : ServiceProvider) (identity : IdentityProvider) :
    declaredSigned service identity = true ↔
      service.requestsSigned = "true" ∨ identity.wantsRequestsSigned = "true" := by
  simp [declaredSigned, ServiceProvider.signsRequests, IdentityProvider.wantsSignedRequests]

theorem signed_posted_iff {document : Document} {posted : Option PostedSignature}
    (found : postedSignature? document = .ok posted) :
    (posted.map PostedSignature.signature).any (fun carried => carried.value ≠ "") = true ↔
      ∃ value, signatureValue? document = some value ∧ value ≠ "" := by
  rcases postedSignature?_cases document with
    ⟨_, noElement, unsigned⟩ | ⟨position, element, _, atElement, isRead⟩
  · rw [unsigned] at found
    cases found
    simp [signatureValue?, noElement]
  · rw [isRead] at found
    obtain ⟨signature, hasParts, same⟩ := map_eq_ok_iff.mp found
    obtain ⟨value, atValue, valueEq⟩ := Signature.Embedded.value_of_ofElement hasParts
    cases same
    simp [signatureValue?, atElement, atValue, valueEq]

theorem acceptQuery_eq_ok_iff {limits : Limits} {service : ServiceProvider}
    {identity : IdentityProvider} {submission : Submission} {request : AuthnRequest} {verified : Bool} :
    acceptQuery limits service identity submission = .ok (request, verified) ↔
      verified = queryDemandsVerification service identity submission.carrier.binding
          submission.signature ∧
        (verified = true → verifyQuery limits service submission.request submission.relayState
          submission.signature submission.signatureAlgorithm = .ok ()) ∧
        ∃ text document, queryDocument limits submission.request submission.encoding = .ok text ∧
          AuthnRequest.readDocument limits text = .ok document ∧
          AuthnRequest.ofDocument document = .ok request := by
  unfold acceptQuery AuthnRequest.read
  simp only [guarded_eq_ok_iff, bind_eq_ok_iff, lift_eq_ok_iff]
  constructor
  · rintro ⟨passes, text, decodes, _, ⟨document, isRead, hasRequest⟩, same⟩
    cases same
    exact ⟨rfl, passes, text, document, decodes, isRead, hasRequest⟩
  · rintro ⟨rfl, passes, text, document, decodes, isRead, hasRequest⟩
    exact ⟨passes, text, decodes, request, ⟨document, isRead, hasRequest⟩, rfl⟩

private theorem acceptQuery_eq_error {limits : Limits} {service : ServiceProvider}
    {identity : IdentityProvider} {submission : Submission} {failure : Failure}
    (verifies : queryDemandsVerification service identity submission.carrier.binding
        submission.signature = true → verifyQuery limits service submission.request submission.relayState
        submission.signature submission.signatureAlgorithm = .ok ())
    (fails : queryDocument limits submission.request submission.encoding = .error failure) :
    acceptQuery limits service identity submission = .error failure := by
  unfold acceptQuery
  cases demanded : queryDemandsVerification service identity submission.carrier.binding
      submission.signature with
  | false =>
      simp only [fails]
      rfl
  | true =>
      simp only [verifies demanded, fails]
      rfl

theorem acceptForm_eq_ok_iff {limits : Limits} {service : ServiceProvider}
    {identity : IdentityProvider} {submission : Submission} {request : AuthnRequest} {verified : Bool} :
    acceptForm limits service identity submission = .ok (request, verified) ↔
      ∃ text document posted, formDocument limits submission.request = .ok text ∧
        AuthnRequest.readDocument limits text = .ok document ∧
        postedSignature? document = .ok posted ∧
        verified = formDemandsVerification service identity submission.carrier.binding
          (posted.map PostedSignature.signature) ∧
        (verified = true → verifyDocument service document = .ok ()) ∧
        AuthnRequest.ofDocument document = .ok request := by
  unfold acceptForm
  simp only [guarded_eq_ok_iff, bind_eq_ok_iff]
  constructor
  · rintro ⟨text, decodes, document, isRead, posted, found, passes, _, hasRequest, same⟩
    cases same
    exact ⟨text, document, posted, decodes, isRead, found, rfl, passes, hasRequest⟩
  · rintro ⟨text, document, posted, decodes, isRead, found, rfl, passes, hasRequest⟩
    exact ⟨text, decodes, document, isRead, posted, found, passes, request, hasRequest, rfl⟩

private theorem verifyForm_eq_verifyDocument {limits : Limits} {service : ServiceProvider}
    {parameter text : String}
    {document : Document} (decodes : formDocument limits parameter = .ok text)
    (isRead : AuthnRequest.readDocument limits text = .ok document) :
    verifyForm limits service parameter = verifyDocument service document := by
  simp [verifyForm, decodes, isRead, bind, Except.bind]

/-! ### The gate -/

/-- What is asked of a submission before its request is accepted, as verified or not. -/
structure Passes (limits : Limits) (service : ServiceProvider) (identity : IdentityProvider)
    (submission : Submission) (document : Document) (request : AuthnRequest) (verified : Bool) : Prop where
  spells : submission.Spells limits document
  hasRequest : AuthnRequest.ofDocument document = .ok request
  verified_iff : verified = true ↔ Demanded service identity submission document
  verifies : verified = true → submission.verification limits service = .ok ()

theorem acceptQuery_eq_ok_iff_passes {limits : Limits} {service : ServiceProvider}
    {identity : IdentityProvider} {submission : Submission} {request : AuthnRequest} {verified : Bool}
    (inQuery : submission.carrier = .query) :
    acceptQuery limits service identity submission = .ok (request, verified) ↔
      ∃ document, Passes limits service identity submission document request verified := by
  have demanded_iff (document : Document) :
      queryDemandsVerification service identity submission.carrier.binding submission.signature = true ↔
        Demanded service identity submission document := by
    simp [queryDemandsVerification, Demanded, Submission.Signed, inQuery, Carrier.binding,
      declaredSigned_iff]
  rw [acceptQuery_eq_ok_iff]
  constructor
  · rintro ⟨same, verifies, text, document, decodes, isRead, hasRequest⟩
    refine ⟨document, ⟨⟨text, ?_, isRead⟩, ?_⟩, hasRequest, ?_, ?_⟩
    · simpa [Submission.documentText, inQuery] using decodes
    · intro inForm
      rw [inQuery] at inForm
      cases inForm
    · rw [same]
      exact demanded_iff document
    · simpa [Submission.verification, inQuery] using verifies
  · rintro ⟨document, ⟨⟨text, decodes, isRead⟩, _⟩, hasRequest, verified_iff, verifies⟩
    refine ⟨?_, ?_, text, document, ?_, isRead, hasRequest⟩
    · exact Bool.eq_iff_iff.mpr (verified_iff.trans (demanded_iff document).symm)
    · simpa [Submission.verification, inQuery] using verifies
    · simpa [Submission.documentText, inQuery] using decodes

private theorem acceptForm_eq_ok_iff_passes {limits : Limits} {service : ServiceProvider}
    {identity : IdentityProvider} {submission : Submission} {request : AuthnRequest} {verified : Bool}
    (inForm : submission.carrier = .form) :
    acceptForm limits service identity submission = .ok (request, verified) ↔
      ∃ document, Passes limits service identity submission document request verified := by
  have demanded_iff {document : Document} {posted : Option PostedSignature}
      (found : postedSignature? document = .ok posted) :
      formDemandsVerification service identity submission.carrier.binding
          (posted.map PostedSignature.signature) = true ↔
        Demanded service identity submission document := by
    simp only [formDemandsVerification, Demanded, Submission.Signed, inForm, Carrier.binding,
      Bool.and_eq_true, Bool.or_eq_true, decide_true, true_and, declaredSigned_iff,
      signed_posted_iff found]
  rw [acceptForm_eq_ok_iff]
  constructor
  · rintro ⟨text, document, posted, decodes, isRead, found, same, verifies, hasRequest⟩
    refine ⟨document, ⟨⟨text, ?_, isRead⟩, fun _ => ?_⟩, hasRequest, ?_, ?_⟩
    · simpa [Submission.documentText, inForm] using decodes
    · exact (exists_postedSignature?_eq_ok_iff document).mp ⟨posted, found⟩
    · rw [same]
      exact demanded_iff found
    · simpa [Submission.verification, inForm, verifyForm_eq_verifyDocument decodes isRead] using verifies
  · rintro ⟨document, ⟨⟨text, decodes, isRead⟩, readable⟩, hasRequest, verified_iff, verifies⟩
    obtain ⟨posted, found⟩ := (exists_postedSignature?_eq_ok_iff document).mpr (readable inForm)
    have decodesForm : formDocument limits submission.request = .ok text := by
      simpa [Submission.documentText, inForm] using decodes
    refine ⟨text, document, posted, decodesForm, isRead, found, ?_, ?_, hasRequest⟩
    · exact Bool.eq_iff_iff.mpr (verified_iff.trans (demanded_iff found).symm)
    · simpa [Submission.verification, inForm, verifyForm_eq_verifyDocument decodesForm isRead] using
        verifies

theorem accept_eq_ok_iff {limits : Limits} {carrier : Carrier} {raw : String}
    {service : ServiceProvider} {identity : IdentityProvider} {accepted : AcceptedRequest} :
    accept limits carrier raw service identity = .ok accepted ↔
      Submission.read limits carrier raw = .ok accepted.submission ∧
        chooseEndpoint? service.endpoints carrier.binding = some accepted.endpoint ∧
        ∃ document, Passes limits service identity accepted.submission document accepted.request
          accepted.verified := by
  unfold accept
  rw [bind_eq_ok_iff]
  simp only [lift_eq_ok_iff]
  constructor
  · rintro ⟨submission, isRead, decided⟩
    have carrierEq := Submission.carrier_of_read isRead
    cases chosen : chooseEndpoint? service.endpoints carrier.binding with
    | none =>
        simp [chosen] at decided
    | some endpoint =>
        simp only [chosen] at decided
        cases carrier with
        | query =>
            obtain ⟨⟨request, verified⟩, passes, same⟩ := bind_eq_ok_iff.mp decided
            cases same
            exact ⟨isRead, rfl, (acceptQuery_eq_ok_iff_passes carrierEq).mp passes⟩
        | form =>
            obtain ⟨⟨request, verified⟩, passes, same⟩ := bind_eq_ok_iff.mp decided
            cases same
            exact ⟨isRead, rfl, (acceptForm_eq_ok_iff_passes carrierEq).mp (lift_eq_ok_iff.mp passes)⟩
  · rintro ⟨isRead, chosen, passes⟩
    have carrierEq := Submission.carrier_of_read isRead
    refine ⟨accepted.submission, isRead, ?_⟩
    simp only [chosen]
    cases carrier with
    | query =>
        exact bind_eq_ok_iff.mpr
          ⟨(accepted.request, accepted.verified), (acceptQuery_eq_ok_iff_passes carrierEq).mpr passes, rfl⟩
    | form =>
        have decided := lift_eq_ok_iff.mpr ((acceptForm_eq_ok_iff_passes carrierEq).mpr passes)
        exact bind_eq_ok_iff.mpr ⟨(accepted.request, accepted.verified), decided, rfl⟩

/-- A query that gets as far as its document fails as the document does. -/
theorem accept_query_eq_error {limits : Limits} {raw : String} {service : ServiceProvider}
    {identity : IdentityProvider} {submission : Submission} {endpoint : Endpoint} {failure : Failure}
    (isRead : Submission.read limits .query raw = .ok submission)
    (chosen : chooseEndpoint? service.endpoints Carrier.query.binding = some endpoint)
    (verifies : queryDemandsVerification service identity submission.carrier.binding
        submission.signature = true → verifyQuery limits service submission.request submission.relayState
        submission.signature submission.signatureAlgorithm = .ok ())
    (fails : queryDocument limits submission.request submission.encoding = .error failure) :
    accept limits .query raw service identity = .error failure := by
  refine bind_eq_error_iff.mpr (.inr ⟨submission, lift_eq_ok_iff.mpr isRead, ?_⟩)
  rw [chosen]
  exact bind_eq_error_iff.mpr (.inl (acceptQuery_eq_error verifies fails))

/-- A request is accepted exactly when its parameters can be read, there is an endpoint, its document says
what a login needs, and its signature verifies if one is demanded. What is accepted is what was read: the
flag says whether verification was demanded, and wherever it was, the verifier of the binding has accepted
the very parameters of the submission. -/
theorem gate_accepts_exactly (limits : Limits) (carrier : Carrier) (raw : String)
    (service : ServiceProvider) (identity : IdentityProvider) :
    ((∃ accepted, accept limits carrier raw service identity = .ok accepted) ↔
      ∃ submission document, Submission.read limits carrier raw = .ok submission ∧
        service.endpoints ≠ [] ∧ submission.Spells limits document ∧
        (∃ request, AuthnRequest.ofDocument document = .ok request) ∧
        (Demanded service identity submission document →
          submission.verification limits service = .ok ())) ∧
    ∀ accepted, accept limits carrier raw service identity = .ok accepted ↔
      Submission.read limits carrier raw = .ok accepted.submission ∧
        chooseEndpoint? service.endpoints carrier.binding = some accepted.endpoint ∧
        ∃ document, Passes limits service identity accepted.submission document accepted.request
          accepted.verified := by
  refine ⟨?_, fun accepted => accept_eq_ok_iff⟩
  constructor
  · rintro ⟨accepted, isAccepted⟩
    obtain ⟨isRead, chosen, document, passes⟩ := accept_eq_ok_iff.mp isAccepted
    refine ⟨accepted.submission, document, isRead, ?_, passes.spells, ⟨_, passes.hasRequest⟩, ?_⟩
    · intro none
      rw [none] at chosen
      cases chosen
    · intro demanded
      exact passes.verifies (passes.verified_iff.mpr demanded)
  · rintro ⟨submission, document, isRead, someEndpoint, spells, ⟨request, hasRequest⟩, verifies⟩
    obtain ⟨endpoint, chosen⟩ := exists_chooseEndpoint?_eq_some someEndpoint carrier.binding
    classical
    refine ⟨⟨submission, request, endpoint, decide (Demanded service identity submission document)⟩,
      accept_eq_ok_iff.mpr ⟨isRead, chosen, document, spells, hasRequest, ?_, ?_⟩⟩
    · exact decide_eq_true_iff
    · intro demanded
      exact verifies (decide_eq_true_iff.mp demanded)

end SamlGate
