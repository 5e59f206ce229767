import SamlGate.Proofs.Codec.Percent
import SamlGate.Proofs.Login.Characters
import SamlGate.Proofs.Login.Digested

/-!
What the signature of a query decides.

The signature covers a query that is put together anew from three values. A written value holds no
separator, so the query gives the three values back, and everything that is read of an accepted request
follows from them. The parameter that names the encoding is not covered, but it may only say what holds
without it.
-/

namespace SamlGate

open Xml Outcome

/-! ### The covered query -/

/-- A separator that stands in neither front is found at one place. -/
theorem append_separator_inj {separator : Char} {front frontToo back backToo : List Char}
    (free : separator ∉ front) (freeToo : separator ∉ frontToo) :
    front ++ separator :: back = frontToo ++ separator :: backToo ↔
      front = frontToo ∧ back = backToo := by
  constructor
  · intro same
    rcases List.append_eq_append_iff.mp same with ⟨extra, longer, rest⟩ | ⟨extra, longer, rest⟩
    · cases extra with
      | nil =>
          rw [List.append_nil] at longer
          exact ⟨longer.symm, (List.cons.inj rest).2⟩
      | cons first extra =>
          rw [(List.cons.inj rest).1] at freeToo
          simp [longer] at freeToo
    · cases extra with
      | nil =>
          rw [List.append_nil] at longer
          exact ⟨longer, (List.cons.inj rest).2.symm⟩
      | cons first extra =>
          rw [(List.cons.inj rest).1] at free
          simp [longer] at free
  · intro same
    rw [same.1, same.2]

/-- What follows the value of the request in a covered query, less the separator in front. -/
def signedRest (relayState algorithm : String) : List Char :=
  (if relayState = "" then [] else "RelayState=".toList ++ (Percent.encode relayState).toList ++ ['&'])
    ++ "SigAlg=".toList ++ (Percent.encode algorithm).toList

private theorem toList_signedQuery (request relayState algorithm : String) :
    (signedQuery request relayState algorithm).toList =
      "SAMLRequest=".toList ++
        ((Percent.encode request).toList ++ '&' :: signedRest relayState algorithm) := by
  unfold signedQuery signedRest
  by_cases absent : relayState = ""
  · simp [absent]
  · simp [absent]

private theorem signedRest_inj {relayState algorithm relayStateToo algorithmToo : String} :
    signedRest relayState algorithm = signedRest relayStateToo algorithmToo ↔
      relayState = relayStateToo ∧ algorithm = algorithmToo := by
  constructor
  · intro same
    unfold signedRest at same
    by_cases absent : relayState = ""
    · by_cases absentToo : relayStateToo = ""
      · simp only [absent, absentToo, if_true, List.nil_append, List.append_cancel_left_eq,
          String.toList_inj, Percent.encode_inj] at same
        exact ⟨absent.trans absentToo.symm, same⟩
      · simp [absent, absentToo] at same
    · by_cases absentToo : relayStateToo = ""
      · simp [absent, absentToo] at same
      · simp only [if_neg absent, if_neg absentToo, List.append_assoc, List.append_cancel_left_eq,
          List.singleton_append] at same
        obtain ⟨relayStates, algorithms⟩ :=
          (append_separator_inj (Percent.separator_not_mem_encode rfl relayState)
            (Percent.separator_not_mem_encode rfl relayStateToo)).mp same
        have algorithmsToo := String.toList_inj.mp (List.append_cancel_left algorithms)
        exact ⟨Percent.encode_inj.mp (String.toList_inj.mp relayStates),
          Percent.encode_inj.mp algorithmsToo⟩
  · intro same
    rw [same.1, same.2]

/-- A covered query gives back the three values that it is put together from. -/
theorem signedQuery_inj {request relayState algorithm requestToo relayStateToo algorithmToo : String} :
    signedQuery request relayState algorithm = signedQuery requestToo relayStateToo algorithmToo ↔
      request = requestToo ∧ relayState = relayStateToo ∧ algorithm = algorithmToo := by
  rw [← String.toList_inj, toList_signedQuery, toList_signedQuery, List.append_cancel_left_eq,
    append_separator_inj (Percent.separator_not_mem_encode rfl request)
      (Percent.separator_not_mem_encode rfl requestToo), String.toList_inj, Percent.encode_inj,
    signedRest_inj]

/-! ### What is not covered -/

/-- Where a stated encoding is admitted, the document is what it is where none is stated. -/
theorem queryDocument_eq_of_eq_ok {limits : Limits} {parameter encoding text : String}
    (decodes : queryDocument limits parameter encoding = .ok text) :
    queryDocument limits parameter "" = .ok text := by
  unfold queryDocument at decodes ⊢
  split at decodes
  · cases decodes
  · rw [if_neg (by simp)]
    exact decodes

private theorem AuthnRequest.eq_of_spells {limits : Limits} {submission other : Submission}
    {document documentToo : Document} {request requestToo : AuthnRequest}
    (inQuery : submission.carrier = .query) (inQueryToo : other.carrier = .query)
    (same : submission.request = other.request) (spells : submission.Spells limits document)
    (spellsToo : other.Spells limits documentToo) (isRead : ofDocument document = .ok request)
    (isReadToo : ofDocument documentToo = .ok requestToo) : request = requestToo := by
  obtain ⟨text, decodes, isDocument⟩ := spells.decodes
  obtain ⟨textToo, decodesToo, isDocumentToo⟩ := spellsToo.decodes
  unfold Submission.documentText at decodes decodesToo
  rw [inQuery] at decodes
  rw [inQueryToo] at decodesToo
  have plain := queryDocument_eq_of_eq_ok decodes
  have plainToo := queryDocument_eq_of_eq_ok decodesToo
  rw [← same, plain] at plainToo
  cases plainToo
  rw [isDocument] at isDocumentToo
  cases isDocumentToo
  rw [isRead] at isReadToo
  exact Except.ok.inj isReadToo

/-! ### Two accepted queries -/

/-- Whatever else two accepted queries hold and however they are spelled, they are one to the login flow if
their signatures cover the same query: one request, one relay state, one algorithm and one endpoint. This
holds whether or not the signatures had to be verified. -/
theorem accept_query_eq_of_signedQuery {limits : Limits} {service : ServiceProvider}
    {identity : IdentityProvider} {raw rawToo : String} {accepted other : AcceptedRequest}
    (isAccepted : accept limits .query raw service identity = .ok accepted)
    (isAcceptedToo : accept limits .query rawToo service identity = .ok other)
    (covered :
      signedQuery accepted.submission.request accepted.submission.relayState
          accepted.submission.signatureAlgorithm =
        signedQuery other.submission.request other.submission.relayState
          other.submission.signatureAlgorithm) :
    accepted.request = other.request ∧
      accepted.submission.relayState = other.submission.relayState ∧
      accepted.submission.signatureAlgorithm = other.submission.signatureAlgorithm ∧
      accepted.endpoint = other.endpoint := by
  obtain ⟨isRead, chosen, document, passes⟩ := accept_eq_ok_iff.mp isAccepted
  obtain ⟨isReadToo, chosenToo, documentToo, passesToo⟩ := accept_eq_ok_iff.mp isAcceptedToo
  obtain ⟨requests, relayStates, algorithms⟩ := signedQuery_inj.mp covered
  have inQuery := Submission.carrier_of_read isRead
  have inQueryToo := Submission.carrier_of_read isReadToo
  have oneRequest := AuthnRequest.eq_of_spells inQuery inQueryToo requests passes.spells
    passesToo.spells passes.hasRequest passesToo.hasRequest
  rw [chosen] at chosenToo
  exact ⟨oneRequest, relayStates, algorithms, Option.some.inj chosenToo⟩

/-! ### One request, spelled twice -/

/-- The request of a service provider, in a stored block of a compressed stream. -/
def sentRequest : List Char :=
  ["AWYAmf88cDpBdXRoblJlcXVlc3QgeG1sbnM6cD0i",
     "dXJuOm9hc2lzOm5hbWVzOnRjOlNBTUw6Mi4wOnBy",
     "b3RvY29sIiBJRD0iYSIgVmVyc2lvbj0iMi4wIiBJ",
     "c3N1ZUluc3RhbnQ9InQiLz4="].flatMap String.toList

def sentDocument : List Char :=
  ["<p:AuthnRequest xmlns:p=\"urn:oasis:name",
     "s:tc:SAML:2.0:protocol\" ID=\"a\" Versio",
     "n=\"2.0\" IssueInstant=\"t\"/>"].flatMap String.toList

def sentAlgorithm : List Char :=
  ["http://www.w3.org/2000/09/xmldsig#rsa-sh",
     "a1"].flatMap String.toList

/-- The signature of the request with the relay state `r s`. -/
def sentSignature : List Char :=
  ["ExecGCfHDbo1cQQ4vXwLM0oKVVKjn6epLRAzmPcT",
     "1QuCtSQENDA5Fz4tUzOy/Q=="].flatMap String.toList

/-- A certificate whose key is just long enough for a signature. -/
def sentCertificate : List Char :=
  ["MIGEMHgCAQEwBQYDKgMEMAAwHhcNMjIwMTAxMDAw",
     "MDAwWhcNMjIwMTAxMDAwMDAwWjAAMEgwDQYJKoZI",
     "hvcNAQEBBQADNwAwNAIvAMg3WjaUnS8wFiYLUYGp",
     "uz8U24SsJOiB+JrAfRIISa1vEkDksac4zGQlXFJD",
     "s78CAQMwBQYDKgMEAwEA"].flatMap String.toList

def sender : ServiceProvider where
  endpoints := [{ binding := .post, location := "https://sp.example.org/" }]
  keyDescriptors := [⟨some "signing", [String.ofList sentCertificate]⟩]

def sentSubmission (encoding : String) : Submission where
  carrier := .query
  request := String.ofList sentRequest
  encoding := encoding
  relayState := "r s"
  signatureAlgorithm := String.ofList sentAlgorithm
  signature := String.ofList sentSignature

def sentQuery : List Char :=
  ["SAMLRequest=AWYAmf88cDpBdXRoblJlcXVlc3Qg",
     "eG1sbnM6cD0idXJuOm9hc2lzOm5hbWVzOnRjOlNB",
     "TUw6Mi4wOnByb3RvY29sIiBJRD0iYSIgVmVyc2lv",
     "bj0iMi4wIiBJc3N1ZUluc3RhbnQ9InQiLz4%3D&R",
     "elayState=r+s&SigAlg=http%3A%2F%2Fwww.w3",
     ".org%2F2000%2F09%2Fxmldsig%23rsa-sha1&Si",
     "gnature=ExecGCfHDbo1cQQ4vXwLM0oKVVKjn6ep",
     "LRAzmPcT1QuCtSQENDA5Fz4tUzOy%2FQ%3D%3D"].flatMap String.toList

/-- The query with its parameters in another order and other escapes, and with more parameters. -/
def respelledQuery : List Char :=
  ["Signature=ExecGCfHDbo1cQQ4vXwLM0oKVVKjn6",
     "epLRAzmPcT1QuCtSQENDA5Fz4tUzOy%2FQ%3D%3D",
     "&SigAlg=http%3a//www.w3.org/2000/09/xmld",
     "sig#rsa-sha1&RelayState=r%20%73&SAMLEnco",
     "ding=urn:oasis:names:tc:SAML:2.0:binding",
     "s:URL-Encoding:DEFLATE&SAMLRequest=AWYAm",
     "f88cDpBdXRoblJlcXVlc3QgeG1sbnM6cD0idXJuO",
     "m9hc2lzOm5hbWVzOnRjOlNBTUw6Mi4wOnByb3RvY",
     "29sIiBJRD0iYSIgVmVyc2lvbj0iMi4wIiBJc3N1Z",
     "Uluc3RhbnQ9InQiLz4%3D&SAMLRequest=x&othe",
     "r=1"].flatMap String.toList

def sentParameters : List (List Char × List Char) :=
  [("SAMLRequest".toList, sentRequest), ("RelayState".toList, "r s".toList),
    ("SigAlg".toList, sentAlgorithm), ("Signature".toList, sentSignature)]

def respelledParameters : List (List Char × List Char) :=
  [("Signature".toList, sentSignature), ("SigAlg".toList, sentAlgorithm),
    ("RelayState".toList, "r s".toList), ("SAMLEncoding".toList, compressedUri.toList),
    ("SAMLRequest".toList, sentRequest), ("SAMLRequest".toList, "x".toList), ("other".toList, "1".toList)]

theorem sentRequest_ne_empty : String.ofList sentRequest ≠ "" := by
  intro empty
  have none : sentRequest = [] := String.ofList_injective empty
  exact absurd none (by decide)

set_option maxRecDepth 8000 in
theorem checkEncoded_sentRequest : ({} : Limits).checkEncoded (String.ofList sentRequest) = .ok () := by
  decide

set_option maxRecDepth 8000 in
private theorem inflates_sentRequest : (Base64.decodeOnto []
    (sentRequest.filter fun character => !Text.isAsciiBlank character)).any (fun stream =>
      ({} : Limits).inflate stream = .ok (Octets.ofText (String.ofList sentDocument))) = true := by
  decide

private theorem queryDocument_sent {encoding : String} (stated : encoding = "" ∨ encoding = compressedUri) :
    queryDocument {} (String.ofList sentRequest) encoding = .ok (String.ofList sentDocument) := by
  obtain ⟨stream, decoded, inflated⟩ := (Option.any_eq_true _ _).mp inflates_sentRequest
  exact queryDocument_ofList stated checkEncoded_sentRequest decoded (of_decide_eq_true inflated)

private theorem bare_sentCertificate :
    "-----BEGIN".toList.isPrefixOf (Text.trimmed sentCertificate) = false := by
  decide

private theorem sentSignature_ne_empty : String.ofList sentSignature ≠ "" := by
  intro empty
  have none : sentSignature = [] := String.ofList_injective empty
  exact absurd none (by decide)

private theorem querySignatureMethod_sent :
    querySignatureMethod (String.ofList sentAlgorithm) = .ok ⟨.sha1⟩ := by
  decide

set_option maxRecDepth 8000 in
private theorem verifies_sentSignature : (Base64.decodeOnto []
    ((Text.trimmed sentCertificate).filter fun character => !Text.isAsciiBlank character)).any
      (fun octets => (VerificationKey.ofOctets octets).toOption.any fun key =>
        (Base64.decodeOnto [] sentSignature).any fun value =>
          (SignatureMethod.mk .sha1).verifies key.key
            (Octets.ofText
              (signedQuery (String.ofList sentRequest) "r s" (String.ofList sentAlgorithm))) value) =
    true := by
  decide

theorem verifyQuery_sent :
    verifyQuery {} sender (String.ofList sentRequest) "r s" (String.ofList sentSignature)
      (String.ofList sentAlgorithm) = .ok () := by
  obtain ⟨key, keyOf, hasValue⟩ :=
    VerificationKey.exists_ofText_ofList bare_sentCertificate verifies_sentSignature
  obtain ⟨value, isValue, verified⟩ := (Option.any_eq_true _ _).mp hasValue
  have certificate : sender.signingCertificate = .ok (String.ofList sentCertificate) := rfl
  have registered : sender.signingKey = .ok key :=
    bind_eq_ok_iff.mpr ⟨_, certificate, by rw [keyOf]⟩
  exact verifyQuery_ofList sentRequest_ne_empty checkEncoded_sentRequest sentSignature_ne_empty
    querySignatureMethod_sent isValue registered verified

def statedRequest : AuthnRequest where
  id := "a"
  version := "2.0"
  issueInstant := "t"
  destination := none
  consumerUrl := none
  protocolBinding := none
  forceAuthn := false
  isPassive := false
  issuer := none

set_option maxRecDepth 8000 in
private theorem states_sentDocument : (documentOf? sentDocument).any (fun document =>
    document.root.tag.isNamed Namespaces.protocol "AuthnRequest" &&
      AuthnRequest.ofDocument document = .ok statedRequest) = true := by
  decide

theorem exists_document_sent :
    ∃ document, documentOf? sentDocument = some document ∧
      document.root.tag.isNamed Namespaces.protocol "AuthnRequest" = true ∧
      AuthnRequest.ofDocument document = .ok statedRequest := by
  obtain ⟨document, spelled, isRequest⟩ := (Option.any_eq_true _ _).mp states_sentDocument
  obtain ⟨named, stated⟩ := Bool.and_eq_true_iff.mp isRequest
  exact ⟨document, spelled, named, of_decide_eq_true stated⟩

theorem exists_passes_sentSubmission {encoding : String}
    (stated : encoding = "" ∨ encoding = compressedUri) :
    ∃ document, Passes {} sender {} (sentSubmission encoding) document statedRequest true := by
  obtain ⟨document, spelled, named, hasRequest⟩ := exists_document_sent
  have isSigned : (sentSubmission encoding).Signed document := sentSignature_ne_empty
  have spells : (sentSubmission encoding).Spells {} document := by
    refine ⟨⟨_, queryDocument_sent stated, readDocument_ofList rfl spelled named⟩, ?_⟩
    intro inForm
    cases inForm
  have demanded : Demanded sender {} (sentSubmission encoding) document := .inl isSigned
  exact ⟨document, spells, hasRequest, iff_of_true rfl demanded, fun _ => verifyQuery_sent⟩

set_option maxRecDepth 8000 in
private theorem spells_sentQuery : SpellsParameters sentQuery sentParameters := by
  decide

set_option maxRecDepth 8000 in
private theorem spells_respelledQuery : SpellsParameters respelledQuery respelledParameters := by
  decide

theorem read_sentQuery :
    Submission.read {} .query (String.ofList sentQuery) = .ok (sentSubmission "") := by
  have counts : Submission.ofParameters .query
      (sentParameters.map fun parameter => (String.ofList parameter.1, String.ofList parameter.2)) =
        sentSubmission "" := by
    simp [sentParameters, Submission.ofParameters, sentSubmission, firstValue, List.lookup_cons]
  exact Submission.read_ofList spells_sentQuery counts sentRequest_ne_empty checkEncoded_sentRequest

private theorem read_respelledQuery :
    Submission.read {} .query (String.ofList respelledQuery) = .ok (sentSubmission compressedUri) := by
  have counts : Submission.ofParameters .query
      (respelledParameters.map fun parameter => (String.ofList parameter.1, String.ofList parameter.2)) =
        sentSubmission compressedUri := by
    simp [respelledParameters, Submission.ofParameters, sentSubmission, firstValue, List.lookup_cons]
  exact Submission.read_ofList spells_respelledQuery counts sentRequest_ne_empty checkEncoded_sentRequest

theorem exists_accept_sent {raw encoding : String}
    (isRead : Submission.read {} .query raw = .ok (sentSubmission encoding))
    (stated : encoding = "" ∨ encoding = compressedUri) :
    ∃ accepted, accept {} .query raw sender {} = .ok accepted ∧ accepted.verified = true ∧
      accepted.submission = sentSubmission encoding := by
  obtain ⟨document, passes⟩ := exists_passes_sentSubmission stated
  refine ⟨⟨sentSubmission encoding, statedRequest, { binding := .post, location := "https://sp.example.org/" },
    true⟩, ?_, rfl, rfl⟩
  exact accept_eq_ok_iff.mpr ⟨isRead, rfl, document, passes⟩

/-- Both spellings are accepted as verified, and as one request. -/
theorem accept_query_eq_of_signedQuery_sent :
    ∃ accepted other, accept {} .query (String.ofList sentQuery) sender {} = .ok accepted ∧
      accept {} .query (String.ofList respelledQuery) sender {} = .ok other ∧
      accepted.verified = true ∧ other.verified = true ∧
      accepted.submission ≠ other.submission ∧ accepted.request = other.request := by
  obtain ⟨accepted, isAccepted, verified, submission⟩ := exists_accept_sent read_sentQuery (.inl rfl)
  obtain ⟨other, isAcceptedToo, verifiedToo, submissionToo⟩ :=
    exists_accept_sent read_respelledQuery (.inr rfl)
  have covered := accept_query_eq_of_signedQuery isAccepted isAcceptedToo (by
    simp only [submission, submissionToo, sentSubmission])
  have different : accepted.submission ≠ other.submission := by
    simp [submission, submissionToo, sentSubmission, compressedUri]
  exact ⟨accepted, other, isAccepted, isAcceptedToo, verified, verifiedToo, different, covered.1⟩

end SamlGate
