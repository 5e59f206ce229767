import SamlGate.Proofs.Login.Limits

/-!
The two carriers agree on what a request says.

A document may be sent compressed in a query or plain in a form. Where no signature is demanded, the gate
accepts either exactly when the document says what a login needs, and then with what it says. The first
part follows what is written through form encoding and base64 and back, the second decides on the document.
The largest limit on a document is the exception: it admits the form and stops at the query.
-/

namespace SamlGate

open Xml Outcome

variable {limits : Limits} {carrier : Carrier} {octets : Octets} {relayState text : String}

/-! ### What is sent -/

/-- The octets of a document and a relay state, as a sender writes them. Without a relay state there is no
parameter for one. -/
def writtenRequest (octets : Octets) (relayState : String) : String :=
  "SAMLRequest=" ++ Percent.encode (Base64.encode octets)
    ++ (if relayState = "" then "" else "&RelayState=" ++ Percent.encode relayState)

def unsignedSubmission (carrier : Carrier) (octets : Octets) (relayState : String) : Submission where
  carrier := carrier
  request := Base64.encode octets
  encoding := ""
  relayState := relayState
  signatureAlgorithm := ""
  signature := ""

def requestParameters (octets : Octets) (relayState : String) : List (String × String) :=
  ("SAMLRequest", Base64.encode octets) ::
    if relayState = "" then [] else [("RelayState", relayState)]

private theorem writtenRequest_eq (octets : Octets) (relayState : String) :
    writtenRequest octets relayState =
      String.ofList (writtenParameters (requestParameters octets relayState)) := by
  have request : Percent.encode "SAMLRequest" = "SAMLRequest" := by rfl
  have state : Percent.encode "RelayState" = "RelayState" := by rfl
  rw [← String.toList_inj, String.toList_ofList]
  unfold writtenRequest writtenParameters requestParameters
  by_cases absent : relayState = ""
  · simp [absent, writtenParameter, request]
  · simp [absent, writtenParameter, request, state, List.intercalate]

private theorem ofParameters_requestParameters (carrier : Carrier) (octets : Octets) (relayState : String) :
    Submission.ofParameters carrier (requestParameters octets relayState) =
      unsignedSubmission carrier octets relayState := by
  unfold Submission.ofParameters unsignedSubmission requestParameters
  by_cases absent : relayState = "" <;> cases carrier <;> simp [absent, firstValue, List.lookup_cons]

private theorem Submission.read_writtenRequest_nil :
    read limits carrier (writtenRequest [] relayState) = .error (.malformed .missingRequest) := by
  unfold read
  rw [writtenRequest_eq, readParameters_written]
  simp only [bind, Except.bind, ofParameters_requestParameters]
  exact if_pos rfl

private theorem Submission.read_writtenRequest (present : octets ≠ [])
    (small : (Base64.encode octets).utf8ByteSize ≤ limits.encoded.toNat) :
    read limits carrier (writtenRequest octets relayState) =
      .ok (unsignedSubmission carrier octets relayState) := by
  have short : limits.checkEncoded (Base64.encode octets) = .ok () :=
    Limits.checkEncoded_eq_ok_iff.mpr small
  unfold read
  rw [writtenRequest_eq, readParameters_written]
  simp only [bind, Except.bind, ofParameters_requestParameters]
  rw [if_neg (by simpa [unsignedSubmission, Base64.encode_eq_empty_iff] using present)]
  rw [show (unsignedSubmission carrier octets relayState).request = Base64.encode octets from rfl, short]

/-! ### What is accepted without a signature -/

variable {submission : Submission} {raw : String} {service : ServiceProvider} {identity : IdentityProvider}

/-- The text spells no document with a signature directly below its root. -/
def WithoutSignature (limits : Limits) (text : String) : Prop :=
  ∀ document, Document.read? limits.nodes.toNat text = some document →
    document.root.childNamed? Namespaces.signature "Signature" = none

private theorem not_demanded {document : Document} (empty : submission.signature = "")
    (undeclared : declaredSigned service identity = false)
    (unsigned : document.root.childNamed? Namespaces.signature "Signature" = none) :
    ¬ Demanded service identity submission document := by
  intro demanded
  rcases demanded with signed | declared
  · unfold Submission.Signed at signed
    cases carried : submission.carrier with
    | query =>
        rw [carried] at signed
        exact signed empty
    | form =>
        rw [carried] at signed
        obtain ⟨value, found, _⟩ := signed
        simp [signatureValue?, unsigned] at found
  · rw [← declaredSigned_iff, undeclared] at declared
    cases declared

private theorem accept_eq_ok_iff_of_unsigned (isRead : Submission.read limits carrier raw = .ok submission)
    (empty : submission.signature = "") (spells : submission.documentText limits = .ok text)
    (undeclared : declaredSigned service identity = false) (unsigned : WithoutSignature limits text)
    {accepted : AcceptedRequest} :
    accept limits carrier raw service identity = .ok accepted ↔
      accepted.submission = submission ∧
        chooseEndpoint? service.endpoints carrier.binding = some accepted.endpoint ∧
        AuthnRequest.read limits text = .ok accepted.request ∧ accepted.verified = false := by
  rw [accept_eq_ok_iff, isRead]
  constructor
  · rintro ⟨same, chosen, document, passes⟩
    cases same
    obtain ⟨found, decodes, isDocument⟩ := passes.spells.decodes
    rw [spells] at decodes
    cases decodes
    have noSignature := unsigned document (AuthnRequest.readDocument_eq_ok_iff.mp isDocument).1
    have undemanded := not_demanded empty undeclared noSignature
    have unverified := (not_congr passes.verified_iff).mpr undemanded
    exact ⟨rfl, chosen, bind_eq_ok_iff.mpr ⟨document, isDocument, passes.hasRequest⟩,
      eq_false_of_ne_true unverified⟩
  · rintro ⟨rfl, chosen, readable, unverified⟩
    obtain ⟨document, isDocument, hasRequest⟩ := bind_eq_ok_iff.mp readable
    have noSignature := unsigned document (AuthnRequest.readDocument_eq_ok_iff.mp isDocument).1
    have undemanded := not_demanded empty undeclared noSignature
    refine ⟨rfl, chosen, document, ⟨⟨text, spells, isDocument⟩, ?_⟩, hasRequest, ?_, ?_⟩
    · intro _ element found
      rw [noSignature] at found
      cases found
    · rw [unverified]
      exact iff_of_false Bool.false_ne_true undemanded
    · intro verified
      rw [unverified] at verified
      cases verified

/-! ### Both carriers -/

/-- What of an accepted request does not depend on how it came. -/
def AcceptedRequest.said (accepted : AcceptedRequest) : AuthnRequest × String × Bool :=
  (accepted.request, accepted.submission.relayState, accepted.verified)

private theorem accept_writtenRequest
    (spells : (unsignedSubmission carrier octets relayState).documentText limits = .ok text)
    (empty : octets = [] → text = "")
    (small : (Base64.encode octets).utf8ByteSize ≤ limits.encoded.toNat)
    (someEndpoint : service.endpoints ≠ []) (undeclared : declaredSigned service identity = false)
    (unsigned : WithoutSignature limits text) :
    (accept limits carrier (writtenRequest octets relayState) service identity).toOption.map
        AcceptedRequest.said =
      (AuthnRequest.read limits text).toOption.map fun request => (request, relayState, false) := by
  by_cases none : octets = []
  · have notRead : AuthnRequest.read limits text = .error (.malformed .document) := by
      rw [empty none]
      rfl
    rw [notRead, none, accept, Submission.read_writtenRequest_nil]
    rfl
  · have isRead := @Submission.read_writtenRequest limits carrier octets relayState none small
    have accepts_iff (accepted : AcceptedRequest) :=
      @accept_eq_ok_iff_of_unsigned _ _ _ _ _ _ identity isRead rfl spells undeclared unsigned accepted
    cases readable : AuthnRequest.read limits text with
    | error fault =>
        cases outcome : accept limits carrier (writtenRequest octets relayState) service identity with
        | error _ =>
            rfl
        | ok accepted =>
            have parts := (accepts_iff accepted).mp outcome
            rw [readable] at parts
            cases parts.2.2.1
    | ok request =>
        obtain ⟨endpoint, chosen⟩ := exists_chooseEndpoint?_eq_some someEndpoint carrier.binding
        have accepts := (accepts_iff ⟨_, request, endpoint, false⟩).mpr ⟨rfl, chosen, readable, rfl⟩
        rw [accepts]
        rfl

private theorem accept_form_writtenRequest (plain : (Octets.ofText text).length ≤ limits.inflated.toNat)
    (inForm : (Base64.encode (Octets.ofText text)).utf8ByteSize ≤ limits.encoded.toNat)
    (someEndpoint : service.endpoints ≠ []) (undeclared : declaredSigned service identity = false)
    (unsigned : WithoutSignature limits text) :
    (accept limits .form (writtenRequest (Octets.ofText text) relayState) service identity).toOption.map
        AcceptedRequest.said =
      (AuthnRequest.read limits text).toOption.map fun request => (request, relayState, false) := by
  apply accept_writtenRequest _ _ inForm someEndpoint undeclared unsigned
  · have decodes := formDocument_eq_ok_iff.mpr ⟨inForm, plain, Base64.decodeWrapped?_encode _⟩
    exact lift_eq_ok_iff.mpr decodes
  · intro none
    exact Octets.ofText_inj.mp none

/-- The limits admit a document, as well as both ways to send it. -/
structure Limits.Admits (limits : Limits) (stream : Octets) (text : String) : Prop where
  plain : (Octets.ofText text).length ≤ limits.inflated.toNat
  inQuery : (Base64.encode stream).utf8ByteSize ≤ limits.encoded.toNat
  inForm : (Base64.encode (Octets.ofText text)).utf8ByteSize ≤ limits.encoded.toNat

private theorem accept_query_writtenRequest_of_not_countable {stream : Octets}
    (uncountable : ¬ limits.Countable)
    (present : stream ≠ []) (inQuery : (Base64.encode stream).utf8ByteSize ≤ limits.encoded.toNat)
    (someEndpoint : service.endpoints ≠ []) (undeclared : declaredSigned service identity = false) :
    accept limits .query (writtenRequest stream relayState) service identity = .error .overflow := by
  have isRead := @Submission.read_writtenRequest limits .query stream relayState present inQuery
  have undemanded : queryDemandsVerification service identity .redirect "" = false := by
    simp [queryDemandsVerification, undeclared]
  have stops : queryDocument limits (Base64.encode stream) "" = .error .overflow :=
    queryDocument_of_not_countable uncountable (.inl rfl) inQuery (Base64.decodeWrapped?_encode stream)
  obtain ⟨endpoint, chosen⟩ := exists_chooseEndpoint?_eq_some someEndpoint Carrier.query.binding
  apply accept_query_eq_error isRead chosen _ stops
  intro demanded
  cases undemanded.symm.trans demanded

/-- A document is accepted compressed in a query exactly when it is accepted plain in a form: when it says
what a login needs, and with what it says. Under the largest limit the query stops the run instead. -/
theorem accept_query_eq_accept_form {stream : Octets}
    (inflates : Deflate.Inflates stream (Octets.ofText text)) (admits : limits.Admits stream text)
    (someEndpoint : service.endpoints ≠ []) (undeclared : declaredSigned service identity = false)
    (unsigned : WithoutSignature limits text) (relayState : String) :
    (limits.Countable →
        (accept limits .query (writtenRequest stream relayState) service identity).toOption.map
            AcceptedRequest.said =
          (AuthnRequest.read limits text).toOption.map fun request => (request, relayState, false)) ∧
      (¬ limits.Countable →
        accept limits .query (writtenRequest stream relayState) service identity = .error .overflow) ∧
      (accept limits .form (writtenRequest (Octets.ofText text) relayState) service identity).toOption.map
          AcceptedRequest.said =
        ((AuthnRequest.read limits text).toOption.map fun request => (request, relayState, false)) := by
  have present : stream ≠ [] := by
    rintro rfl
    exact Deflate.not_inflates_nil inflates
  refine ⟨?_, ?_, accept_form_writtenRequest admits.plain admits.inForm someEndpoint undeclared unsigned⟩
  · intro countable
    apply accept_writtenRequest _ _ admits.inQuery someEndpoint undeclared unsigned
    · apply (queryDocument_eq_ok_iff countable).mpr
      exact ⟨.inl rfl, admits.inQuery, admits.plain, stream, Base64.decodeWrapped?_encode stream, inflates⟩
    · intro none
      exact absurd none present
  · intro uncountable
    exact accept_query_writtenRequest_of_not_countable uncountable present admits.inQuery someEndpoint
      undeclared

/-! ### One document, sent twice -/

def sentOctets : Octets :=
  sentDocument.map fun character => UInt8.ofNat character.toNat

def sentStream : Octets :=
  [0x01, 0x66, 0x00, 0x99, 0xFF] ++ sentOctets

private theorem octets_sentDocument : Octets.ofText (String.ofList sentDocument) = sentOctets := by
  decide

private theorem length_sentOctets : sentOctets.length = 102 := by
  decide

set_option maxRecDepth 8000 in
private theorem inflates_sentStream :
    Deflate.Inflates sentStream (Octets.ofText (String.ofList sentDocument)) := by
  have drained : Deflate.inflate 103 sentStream = some sentOctets.toArray := by decide
  rw [octets_sentDocument]
  exact ⟨103, by rw [length_sentOctets]; decide, drained⟩

set_option maxRecDepth 8000 in
private theorem small_sentStream : (Base64.encode sentStream).utf8ByteSize ≤ 524288 := by
  decide

set_option maxRecDepth 8000 in
private theorem small_sentOctets : (Base64.encode sentOctets).utf8ByteSize ≤ 524288 := by
  decide

private theorem admits_sent {inflated : UInt64} (large : 102 ≤ inflated.toNat) :
    Limits.Admits { inflated } sentStream (String.ofList sentDocument) where
  plain := by
    rw [octets_sentDocument, length_sentOctets]
    exact large
  inQuery := small_sentStream
  inForm := by
    rw [octets_sentDocument]
    exact small_sentOctets

set_option maxRecDepth 8000 in
private theorem unsigned_sentDocument : (documentOf? sentDocument).all (fun document =>
    (document.root.childNamed? Namespaces.signature "Signature").isNone) = true := by
  decide

private theorem withoutSignature_sent (inflated : UInt64) :
    WithoutSignature { inflated } (String.ofList sentDocument) := by
  have checked := unsigned_sentDocument
  intro document isRead
  have spelled : documentOf? sentDocument = some document := (read?_ofList sentDocument).symm.trans isRead
  rw [spelled] at checked
  exact Option.isNone_iff_eq_none.mp checked

private theorem read_sent (inflated : UInt64) :
    AuthnRequest.read { inflated } (String.ofList sentDocument) = .ok statedRequest := by
  obtain ⟨document, spelled, named, hasRequest⟩ := exists_document_sent
  have isRead : AuthnRequest.readDocument { inflated } (String.ofList sentDocument) = .ok document :=
    readDocument_ofList rfl spelled named
  exact bind_eq_ok_iff.mpr ⟨document, isRead, hasRequest⟩

/-- The sender's document is accepted from both carriers, as the same. -/
theorem accept_query_eq_accept_form_sent :
    ∃ request,
      (accept {} .query (writtenRequest sentStream "r s") sender {}).toOption.map AcceptedRequest.said =
          some (request, "r s", false) ∧
        (accept {} .form (writtenRequest (Octets.ofText (String.ofList sentDocument)) "r s") sender
            {}).toOption.map AcceptedRequest.said = some (request, "r s", false) := by
  have undeclared : declaredSigned sender {} = false := by decide
  obtain ⟨inQuery, _, inForm⟩ := accept_query_eq_accept_form inflates_sentStream (admits_sent (by decide))
    (List.cons_ne_nil _ _) undeclared (withoutSignature_sent 262144) "r s"
  rw [read_sent] at inQuery inForm
  exact ⟨statedRequest, inQuery (by decide), inForm⟩

/-- Under the largest limit, which admits it too, the sender's document is accepted from a form and stops the
run from a query. -/
theorem accept_query_ne_accept_form_sent :
    Deflate.Inflates sentStream (Octets.ofText (String.ofList sentDocument)) ∧
      Limits.Admits { inflated := 18446744073709551615 } sentStream (String.ofList sentDocument) ∧
      sender.endpoints ≠ [] ∧ declaredSigned sender {} = false ∧
      WithoutSignature { inflated := 18446744073709551615 } (String.ofList sentDocument) ∧
      (accept { inflated := 18446744073709551615 } .form
        (writtenRequest (Octets.ofText (String.ofList sentDocument)) "r s") sender {}).toOption.isSome ∧
      accept { inflated := 18446744073709551615 } .query (writtenRequest sentStream "r s") sender {} =
        .error .overflow := by
  have admits : Limits.Admits { inflated := 18446744073709551615 } sentStream (String.ofList sentDocument) :=
    admits_sent (by decide)
  have undeclared : declaredSigned sender {} = false := by decide
  have unsigned := withoutSignature_sent 18446744073709551615
  have stops := @accept_query_writtenRequest_of_not_countable { inflated := 18446744073709551615 } "r s"
    sender {} sentStream (by decide) (List.cons_ne_nil _ _) admits.inQuery (List.cons_ne_nil _ _) undeclared
  refine ⟨inflates_sentStream, admits, List.cons_ne_nil _ _, undeclared, unsigned, ?_, stops⟩
  have accepts := @accept_form_writtenRequest _ "r s" _ _ _ admits.plain admits.inForm
    (List.cons_ne_nil _ _) undeclared unsigned
  rw [read_sent] at accepts
  have isSome := congrArg Option.isSome accepts
  rw [Option.isSome_map] at isSome
  exact isSome

end SamlGate
