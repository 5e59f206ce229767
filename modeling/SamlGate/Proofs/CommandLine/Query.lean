import SamlGate.CommandLine.Command
import SamlGate.Proofs.Login.QuerySignature

/-!
Queries given to the command line.

A query is handed over by itself or behind an address. The address ends at the first question mark, so
behind an address that has none the query is decided on exactly as it is. A query by itself is decided on as
it is as long as it has no question mark of its own; with one, it is taken for an address up to there.
-/

namespace SamlGate

namespace Command

open Xml Outcome

theorem queryOf_append {address : String} (plain : '?' ∉ address.toList) (query : String) :
    queryOf (address ++ "?" ++ query) = query := by
  have passed : ∀ character ∈ address.toList, decide (character ≠ '?') = true := by
    intro character member
    rw [decide_eq_true_eq]
    intro same
    exact plain (same ▸ member)
  have rest : (address ++ "?" ++ query).toList.dropWhile (· ≠ '?') = '?' :: query.toList := by
    rw [String.toList_append, String.toList_append, List.append_assoc,
      List.dropWhile_append_of_pos passed]
    rfl
  unfold queryOf
  rw [rest]
  exact String.ofList_toList

private theorem queryOf_ofList {characters query : List Char}
    (behind : characters.dropWhile (· ≠ '?') = '?' :: query) :
    queryOf (String.ofList characters) = String.ofList query := by
  unfold queryOf
  rw [String.toList_ofList, behind]

theorem queryOf_of_notMem {query : String} (plain : '?' ∉ query.toList) : queryOf query = query := by
  have rest : query.toList.dropWhile (· ≠ '?') = [] := by
    rw [List.dropWhile_eq_nil_iff]
    intro character member
    rw [decide_eq_true_eq]
    intro same
    exact plain (same ▸ member)
  unfold queryOf
  rw [rest]

private theorem exists_append_of_mem {query : String} (marked : '?' ∈ query.toList) :
    ∃ front rest, query = front ++ "?" ++ rest ∧ '?' ∉ front.toList := by
  obtain ⟨front, rest, divides, plain⟩ := List.eq_append_cons_of_mem marked
  refine ⟨String.ofList front, String.ofList rest, ?_, ?_⟩
  · rw [← String.toList_inj]
    simp only [String.toList_append, String.toList_ofList]
    rw [divides, List.append_assoc]
    rfl
  · rwa [String.toList_ofList]

/-- What is left behind a question mark is shorter than what was given. -/
theorem queryOf_eq_self_iff {query : String} : queryOf query = query ↔ '?' ∉ query.toList := by
  constructor
  · intro whole marked
    obtain ⟨front, rest, divides, plain⟩ := exists_append_of_mem marked
    have left : rest = front ++ "?" ++ rest := by
      rw [divides, queryOf_append plain] at whole
      exact whole
    have lengths := congrArg String.length left
    have mark : "?".length = 1 := rfl
    rw [String.length_append, String.length_append, mark] at lengths
    omega
  · exact queryOf_of_notMem

private theorem run_checkRedirect (limits : Limits) (files : Files) (service : String)
    (identity : Option String) (argument : String) :
    run limits files (.checkRedirect service identity argument) =
      check limits files service identity .query (.ok (queryOf argument)) :=
  rfl

theorem check_eq_map {limits : Limits} {files : Files} {service : String} {identity : Option String}
    {carrier : Carrier} {raw : Except Error String} {text : String} {serviceProvider : ServiceProvider}
    {identityProvider : IdentityProvider} (hasService : readService files service = .ok serviceProvider)
    (hasIdentity : readIdentity files identity = .ok identityProvider) (isRaw : raw = .ok text) :
    check limits files service identity carrier raw =
      (accept limits carrier text serviceProvider identityProvider).map fun accepted =>
        printed (summary accepted) := by
  unfold check
  rw [hasService, hasIdentity, isRaw]
  cases outcome : accept limits carrier text serviceProvider identityProvider with
  | error failure =>
      change accept limits carrier text serviceProvider identityProvider >>= _ = _
      rw [outcome]
      rfl
  | ok accepted =>
      change accept limits carrier text serviceProvider identityProvider >>= _ = _
      rw [outcome]
      rfl

/-- A query behind an address is decided on as it is, whatever is in it. By itself it is where it has no
question mark, and then both answers are the same; otherwise what comes before the mark is lost. -/
theorem run_checkRedirect_of_address {address query : String} (plain : '?' ∉ address.toList)
    (limits : Limits) (files : Files) (service : String) (identity : Option String) :
    run limits files (.checkRedirect service identity (address ++ "?" ++ query)) =
        check limits files service identity .query (.ok query) ∧
      ('?' ∉ query.toList → run limits files (.checkRedirect service identity query) =
        check limits files service identity .query (.ok query)) ∧
      (∀ front rest, query = front ++ "?" ++ rest → '?' ∉ front.toList →
        run limits files (.checkRedirect service identity query) =
          check limits files service identity .query (.ok rest)) ∧
      (queryOf query = query ↔ '?' ∉ query.toList) := by
  have behind {front : String} (plain : '?' ∉ front.toList) (rest : String) :
      run limits files (.checkRedirect service identity (front ++ "?" ++ rest)) =
        check limits files service identity .query (.ok rest) := by
    rw [run_checkRedirect, queryOf_append plain]
  refine ⟨behind plain query, fun plainToo => ?_, fun front rest divides plainToo => ?_,
    queryOf_eq_self_iff⟩
  · rw [run_checkRedirect, queryOf_of_notMem plainToo]
  · rw [divides]
    exact behind plainToo rest

/-! ### A query with an address in it -/

def plainMetadata : List Char :=
  ["<EntityDescriptor xmlns=\"urn:oasis:name",
     "s:tc:SAML:2.0:metadata\"><SPSSODescriptor",
     "><AssertionConsumerService Binding=\"urn:",
     "oasis:names:tc:SAML:2.0:bindings:HTTP-POS",
     "T\" Location=\"https://sp.example.org/\"/",
     "></SPSSODescriptor></EntityDescriptor>"].flatMap String.toList

def plainFiles : Files :=
  fun _ => .ok (String.ofList plainMetadata)

def unsignedQuery : List Char :=
  ["SAMLRequest=AWYAmf88cDpBdXRoblJlcXVlc3Qg",
     "eG1sbnM6cD0idXJuOm9hc2lzOm5hbWVzOnRjOlNB",
     "TUw6Mi4wOnByb3RvY29sIiBJRD0iYSIgVmVyc2lv",
     "bj0iMi4wIiBJc3N1ZUluc3RhbnQ9InQiLz4%3D"].flatMap String.toList

/-- The place to return to, as it may be written in a query without an escape. -/
def returnAddress : List Char :=
  "https://sp.example.org/?a=b".toList

def returningQuery : List Char :=
  unsignedQuery ++ "&RelayState=".toList ++ returnAddress

private theorem not_mem_unsignedQuery : '?' ∉ unsignedQuery := by
  decide

theorem not_mem_address : '?' ∉ "https://idp.example.org/".toList := by
  decide

private theorem dropWhile_returningQuery : returningQuery.dropWhile (· ≠ '?') = '?' :: "a=b".toList := by
  decide

/-! ### What the files and the queries say -/

def plainEndpoint : Endpoint where
  binding := .post
  location := "https://sp.example.org/"

def plainService : ServiceProvider where
  endpoints := [plainEndpoint]

set_option maxRecDepth 8000 in
private theorem describes_plainMetadata : (documentOf? plainMetadata).any
    (fun document => ServiceProvider.ofDocument document = .ok plainService) = true := by
  decide

private theorem readMetadata_ofList {characters : List Char} {document : Document}
    (spelled : documentOf? characters = some document) :
    readMetadata (String.ofList characters) = .ok document := by
  unfold readMetadata
  rw [read?_ofList, spelled]

theorem readService_plainFiles (path : String) : readService plainFiles path = .ok plainService := by
  obtain ⟨document, spelled, described⟩ := (Option.any_eq_true _ _).mp describes_plainMetadata
  refine bind_eq_ok_iff.mpr ⟨String.ofList plainMetadata, rfl, ?_⟩
  exact bind_eq_ok_iff.mpr ⟨document, readMetadata_ofList spelled, of_decide_eq_true described⟩

def unsignedSubmission (relayState : String) : Submission :=
  { sentSubmission "" with relayState := relayState, signatureAlgorithm := "", signature := "" }

private theorem not_demanded_unsignedSubmission (relayState : String) {service : ServiceProvider}
    {document : Document} (unsigned : service.requestsSigned ≠ "true") :
    ¬ Demanded service {} (unsignedSubmission relayState) document := by
  intro demanded
  rcases demanded with signed | declared | wanted
  · exact signed rfl
  · exact unsigned declared
  · exact absurd wanted (by decide)

def unsignedAccepted (relayState : String) : AcceptedRequest where
  submission := unsignedSubmission relayState
  request := statedRequest
  endpoint := plainEndpoint
  verified := false

theorem accept_unsigned {raw relayState : String}
    (isRead : Submission.read {} .query raw = .ok (unsignedSubmission relayState)) :
    accept {} .query raw plainService {} = .ok (unsignedAccepted relayState) := by
  obtain ⟨document, passes⟩ := @exists_passes_sentSubmission "" (.inl rfl)
  have spells : (unsignedSubmission relayState).Spells {} document := ⟨passes.spells.decodes, nofun⟩
  have notDemanded : ¬ Demanded plainService {} (unsignedSubmission relayState) document :=
    not_demanded_unsignedSubmission relayState (by decide)
  refine accept_eq_ok_iff.mpr ⟨isRead, rfl, document, spells, passes.hasRequest, ?_, nofun⟩
  exact iff_of_false Bool.false_ne_true notDemanded

private theorem check_unsigned {raw relayState : String} (path : String)
    (isRead : Submission.read {} .query raw = .ok (unsignedSubmission relayState)) :
    check {} plainFiles path none .query (.ok raw) =
      .ok (printed (summary (unsignedAccepted relayState))) := by
  rw [check_eq_map (readService_plainFiles path) rfl rfl, accept_unsigned isRead]
  rfl

set_option maxRecDepth 8000 in
theorem spells_unsignedQuery : SpellsParameters unsignedQuery [("SAMLRequest".toList, sentRequest)] := by
  decide

private theorem read_unsignedQuery :
    Submission.read {} .query (String.ofList unsignedQuery) = .ok (unsignedSubmission "") := by
  refine Submission.read_ofList spells_unsignedQuery ?_ sentRequest_ne_empty checkEncoded_sentRequest
  simp [Submission.ofParameters, unsignedSubmission, sentSubmission, firstValue, List.lookup_cons]

private theorem spells_returningQuery : SpellsParameters returningQuery
    [("SAMLRequest".toList, sentRequest), ("RelayState".toList, returnAddress)] := by
  have relayState : SpellsParameters ("RelayState=".toList ++ returnAddress)
      [("RelayState".toList, returnAddress)] := by
    decide
  rw [returningQuery, List.append_assoc]
  exact spells_unsignedQuery.append relayState

theorem read_returningQuery :
    Submission.read {} .query (String.ofList returningQuery) =
      .ok (unsignedSubmission (String.ofList returnAddress)) := by
  refine Submission.read_ofList spells_returningQuery ?_ sentRequest_ne_empty checkEncoded_sentRequest
  simp [Submission.ofParameters, unsignedSubmission, sentSubmission, firstValue, List.lookup_cons]

private theorem spells_remainder : SpellsParameters "a=b".toList [("a".toList, "b".toList)] := by
  decide

private theorem read_remainder :
    Submission.read {} .query (String.ofList "a=b".toList) = .error (.malformed .missingRequest) := by
  refine bind_eq_error_iff.mpr (.inr ⟨_, readParameters_ofList spells_remainder, ?_⟩)
  simp [Submission.ofParameters, firstValue, List.lookup_cons]

/-- A query without a question mark is accepted by itself and behind an address. -/
theorem run_checkRedirect_of_address_unsigned :
    ∃ text,
      run {} plainFiles (.checkRedirect "sp.xml" none
        ("https://idp.example.org/" ++ "?" ++ String.ofList unsignedQuery)) = .ok text ∧
      run {} plainFiles (.checkRedirect "sp.xml" none (String.ofList unsignedQuery)) = .ok text := by
  obtain ⟨behind, bare, _⟩ := @run_checkRedirect_of_address _ (String.ofList unsignedQuery)
    not_mem_address {} plainFiles "sp.xml" none
  have accepted := check_unsigned "sp.xml" read_unsignedQuery
  have plain : '?' ∉ (String.ofList unsignedQuery).toList := by
    rw [String.toList_ofList]
    exact not_mem_unsignedQuery
  exact ⟨_, behind.trans accepted, (bare plain).trans accepted⟩

/-- With an address to return to, the query is accepted behind an address and malformed by itself. -/
theorem run_checkRedirect_returning :
    (∃ text, run {} plainFiles (.checkRedirect "sp.xml" none
      ("https://idp.example.org/" ++ "?" ++ String.ofList returningQuery)) = .ok text) ∧
    run {} plainFiles (.checkRedirect "sp.xml" none (String.ofList returningQuery)) =
      .error (.rejected (.malformed .missingRequest)) := by
  constructor
  · rw [run_checkRedirect, queryOf_append not_mem_address]
    exact ⟨_, check_unsigned "sp.xml" read_returningQuery⟩
  · have rejected : accept {} .query (String.ofList "a=b".toList) plainService {} =
        .error (.rejected (.malformed .missingRequest)) := by
      unfold accept
      rw [read_remainder]
      rfl
    rw [run_checkRedirect, queryOf_ofList dropWhile_returningQuery,
      check_eq_map (readService_plainFiles "sp.xml") rfl rfl, rejected]
    rfl

end Command

end SamlGate
