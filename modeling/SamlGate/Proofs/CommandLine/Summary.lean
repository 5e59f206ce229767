import SamlGate.Proofs.CommandLine.Query
import SamlGate.Proofs.Text.Lines

/-!
What is printed about an accepted request.

The summary is a list of items, each a label and a value, of which some are taken from the request and some
from the metadata. It is printed line by line. The verdict and the endpoint are told apart from everything
else by their labels, as long as no value starts a line that has the same label. Values are printed as they
are, so the lines that are read are the items of the summary exactly where no value has a line break.
-/

namespace SamlGate

namespace Command

open Xml Outcome Text

/-! ### Runs that accept a request -/

/-- The files and the raw text make up a request that the gate accepts. -/
def Admits (limits : Limits) (files : Files) (service : String) (identity : Option String)
    (carrier : Carrier) (raw : Except Error String) (accepted : AcceptedRequest) : Prop :=
  ∃ serviceProvider identityProvider text, readService files service = .ok serviceProvider ∧
    readIdentity files identity = .ok identityProvider ∧ raw = .ok text ∧
    accept limits carrier text serviceProvider identityProvider = .ok accepted

def Accepts (limits : Limits) (files : Files) (accepted : AcceptedRequest) : Command → Prop
  | checkRedirect service identity argument =>
    Admits limits files service identity .query (.ok (queryOf argument)) accepted
  | checkPost service identity body =>
    Admits limits files service identity .form ((argumentText files body).map trim) accepted
  | resolveAcs _ _ => False
  | decode _ _ _ => False

variable {limits : Limits} {files : Files} {accepted : AcceptedRequest} {command : Command}

private theorem check_of_admits {service : String} {identity : Option String} {carrier : Carrier}
    {raw : Except Error String} (admits : Admits limits files service identity carrier raw accepted) :
    check limits files service identity carrier raw = .ok (printed (summary accepted)) := by
  obtain ⟨serviceProvider, identityProvider, text, hasService, hasIdentity, isRaw, isAccepted⟩ := admits
  rw [check_eq_map hasService hasIdentity isRaw, isAccepted]
  rfl

private theorem run_of_accepts (accepts : Accepts limits files accepted command) :
    run limits files command = .ok (printed (summary accepted)) := by
  cases command with
  | checkRedirect service identity argument =>
      exact check_of_admits accepts
  | checkPost service identity body =>
      exact check_of_admits accepts
  | resolveAcs service binding =>
      exact accepts.elim
  | decode encoding posted request =>
      exact accepts.elim

/-! ### The items of the summary -/

def endpointText (endpoint : Endpoint) : String :=
  endpoint.location ++ " (" ++ endpoint.binding.uri ++ ")"

def relayItems (relayState : String) : List Labelled :=
  if relayState = "" then [] else [⟨"RelayState: ", relayState⟩]

def items (accepted : AcceptedRequest) : List Labelled :=
  [⟨"OK", ""⟩,
    ⟨"Binding: ", accepted.submission.carrier.binding.uri⟩,
    ⟨"ID: ", accepted.request.id⟩,
    ⟨"IssueInstant: ", accepted.request.issueInstant⟩]
    ++ (accepted.request.issuer.map (Labelled.mk "Issuer: ")).toList
    ++ [⟨"ACS: ", endpointText accepted.endpoint⟩]
    ++ relayItems accepted.submission.relayState
    ++ [⟨"Signature: ", verdict accepted.verified⟩]

def labels : List String :=
  ["OK", "Binding: ", "ID: ", "IssueInstant: ", "Issuer: ", "ACS: ", "RelayState: ", "Signature: "]

private theorem summary_eq_items (accepted : AcceptedRequest) :
    summary accepted = (items accepted).map Labelled.text := by
  unfold summary items relayItems endpointText Labelled.text
  cases stated : accepted.request.issuer with
  | none =>
      by_cases absent : accepted.submission.relayState = "" <;>
        simp [stated, absent, String.append_assoc]
  | some issuer =>
      by_cases absent : accepted.submission.relayState = "" <;>
        simp [stated, absent, String.append_assoc]

private theorem printed_summary_eq (accepted : AcceptedRequest) :
    printed (summary accepted) = listed (items accepted) := by
  rw [printed, listed, summary_eq_items]

/-- The labels stand in one order. Two of the items may be missing. -/
theorem labels_sublist (accepted : AcceptedRequest) :
    ((items accepted).map Labelled.label).Sublist labels := by
  unfold items relayItems
  cases accepted.request.issuer with
  | none =>
      by_cases absent : accepted.submission.relayState = "" <;> simp [absent, labels]
  | some issuer =>
      by_cases absent : accepted.submission.relayState = "" <;> simp [absent, labels]

private theorem wellLabelled_items (accepted : AcceptedRequest) : WellLabelled (items accepted) := by
  have unbroken : ∀ label ∈ labels, Unbroken label := by decide
  have differ : labels.Pairwise Differ := by decide
  constructor
  · intro item member
    exact unbroken item.label ((labels_sublist accepted).subset (List.mem_map_of_mem member))
  · exact List.pairwise_map.mp (differ.sublist (labels_sublist accepted))

/-! ### The values -/

def requestedValues (accepted : AcceptedRequest) : List String :=
  [accepted.request.id, accepted.request.issueInstant] ++ accepted.request.issuer.toList
    ++ [accepted.submission.relayState]

private theorem unbroken_verdict (verified : Bool) : Unbroken (verdict verified) := by
  cases verified <;> decide

theorem unbroken_endpointText_iff (endpoint : Endpoint) :
    Unbroken (endpointText endpoint) ↔ Unbroken endpoint.location ∧ Unbroken endpoint.binding.uri := by
  have opening : Unbroken " (" := by decide
  have closing : Unbroken ")" := by decide
  simp [endpointText, unbroken_append_iff, opening, closing]

def startedLines (accepted : AcceptedRequest) : List String :=
  startedBy (items accepted)

/-- What the program adds of its own starts no line behind its label. -/
theorem startedLines_eq (accepted : AcceptedRequest) :
    startedLines accepted =
      ([accepted.request.id, accepted.request.issueInstant]
          ++ accepted.request.issuer.toList).flatMap started
        ++ started (endpointText accepted.endpoint) ++ started accepted.submission.relayState := by
  have empty : started "" = [] := by decide
  have carrier : started accepted.submission.carrier.binding.uri = [] := by
    cases accepted.submission.carrier <;> decide
  have verdictNone : started (verdict accepted.verified) = [] :=
    started_eq_nil_iff.mpr (unbroken_verdict accepted.verified)
  have relay : startedBy (relayItems accepted.submission.relayState) =
      started accepted.submission.relayState := by
    unfold startedBy relayItems
    by_cases absent : accepted.submission.relayState = ""
    · simp [absent, empty]
    · simp [absent]
  have issuer : startedBy (accepted.request.issuer.map (Labelled.mk "Issuer: ")).toList =
      accepted.request.issuer.toList.flatMap started := by
    cases accepted.request.issuer <;> simp [startedBy]
  rw [startedBy] at relay issuer
  simp [startedLines, startedBy, items, relay, issuer, empty, carrier, verdictNone]

theorem forall_requestedValues_iff (accepted : AcceptedRequest) :
    (∀ value ∈ requestedValues accepted, Unbroken value) ↔
      ([accepted.request.id, accepted.request.issueInstant]
          ++ accepted.request.issuer.toList).flatMap started = [] ∧
        started accepted.submission.relayState = [] := by
  rw [requestedValues, List.forall_mem_append, List.forall_mem_singleton, List.flatMap_eq_nil_iff,
    started_eq_nil_iff]
  simp only [started_eq_nil_iff]

private theorem startedLines_of_unbroken (unbroken : ∀ value ∈ requestedValues accepted, Unbroken value) :
    startedLines accepted = started (endpointText accepted.endpoint) := by
  obtain ⟨noneBefore, noneAfter⟩ := (forall_requestedValues_iff accepted).mp unbroken
  rw [startedLines_eq, noneBefore, noneAfter, List.nil_append, List.append_nil]

theorem length_startedLines_eq_iff (accepted : AcceptedRequest) :
    (startedLines accepted).length = (started (endpointText accepted.endpoint)).length ↔
      ∀ value ∈ requestedValues accepted, Unbroken value := by
  constructor
  · intro same
    rw [startedLines_eq, List.length_append, List.length_append] at same
    refine (forall_requestedValues_iff accepted).mpr ⟨?_, ?_⟩
    · rw [← List.length_eq_zero_iff]
      omega
    · rw [← List.length_eq_zero_iff]
      omega
  · intro unbroken
    rw [startedLines_of_unbroken unbroken]

/-! ### The verdict and the endpoint -/

/-- One line begins as the verdict does, and it says `verified` exactly if the request was verified. -/
def ShowsVerdict (text : String) (verified : Bool) : Prop :=
  ∃ line, linesBeginning "Signature: " text = [line] ∧ (line = "Signature: verified" ↔ verified = true)

def ShowsEndpoint (text : String) (endpoint : Endpoint) : Prop :=
  linesBeginning "ACS: " text = ["ACS: " ++ endpointText endpoint]

/-- The request has no say in what the lines of the text say about it. A line is an item of the summary, or
the metadata starts it. -/
structure Unforged (text : String) (accepted : AcceptedRequest) : Prop where
  verdict : ShowsVerdict text accepted.verified
  endpoint : Unbroken accepted.endpoint.location → ShowsEndpoint text accepted.endpoint
  lines : (lines text).length =
    (summary accepted).length + (started (endpointText accepted.endpoint)).length

theorem showsVerdict_iff (accepted : AcceptedRequest) :
    ShowsVerdict (listed (items accepted)) accepted.verified ↔
      ∀ line ∈ startedLines accepted, ¬ Begins "Signature: " line := by
  have labelled := wellLabelled_items accepted
  have member : ⟨"Signature: ", verdict accepted.verified⟩ ∈ items accepted := by simp [items]
  have unbroken := unbroken_verdict accepted.verified
  have exactly := labelled.linesBeginning_listed_eq_iff member
  rw [and_iff_right unbroken] at exactly
  rw [startedLines, ← exactly]
  constructor
  · rintro ⟨line, single, _⟩
    have found := labelled.mem_linesBeginning member unbroken
    rw [single, List.mem_singleton] at found
    rw [single, found]
  · intro single
    refine ⟨_, single, ?_⟩
    cases accepted.verified <;> decide

theorem showsEndpoint_iff (accepted : AcceptedRequest) :
    ShowsEndpoint (listed (items accepted)) accepted.endpoint ↔
      (Unbroken accepted.endpoint.location ∧ Unbroken accepted.endpoint.binding.uri) ∧
        ∀ line ∈ startedLines accepted, ¬ Begins "ACS: " line := by
  have member : ⟨"ACS: ", endpointText accepted.endpoint⟩ ∈ items accepted := by simp [items]
  rw [← unbroken_endpointText_iff]
  exact (wellLabelled_items accepted).linesBeginning_listed_eq_iff member

theorem length_lines_eq_iff (accepted : AcceptedRequest) :
    (lines (listed (items accepted))).length =
        (summary accepted).length + (started (endpointText accepted.endpoint)).length ↔
      ∀ value ∈ requestedValues accepted, Unbroken value := by
  have items : (summary accepted).length = (items accepted).length := by
    rw [summary_eq_items, List.length_map]
  rw [length_lines_listed (wellLabelled_items accepted).unbroken, items, Nat.add_left_cancel_iff]
  exact length_startedLines_eq_iff accepted

theorem unforged_iff (accepted : AcceptedRequest) :
    Unforged (listed (items accepted)) accepted ↔
      (∀ value ∈ requestedValues accepted, Unbroken value) ∧
        (Unbroken accepted.endpoint.location → Unbroken accepted.endpoint.binding.uri) ∧
        ∀ line ∈ started (endpointText accepted.endpoint), ¬ Begins "Signature: " line := by
  constructor
  · intro unforged
    have unbroken := (length_lines_eq_iff accepted).mp unforged.lines
    refine ⟨unbroken, ?_, ?_⟩
    · intro located
      exact ((showsEndpoint_iff accepted).mp (unforged.endpoint located)).1.2
    · rw [← startedLines_of_unbroken unbroken]
      exact (showsVerdict_iff accepted).mp unforged.verdict
  · rintro ⟨unbroken, named, noVerdict⟩
    have onlyEndpoint := startedLines_of_unbroken unbroken
    refine ⟨?_, ?_, (length_lines_eq_iff accepted).mpr unbroken⟩
    · rw [showsVerdict_iff, onlyEndpoint]
      exact noVerdict
    · intro located
      have none : started (endpointText accepted.endpoint) = [] :=
        started_eq_nil_iff.mpr ((unbroken_endpointText_iff accepted.endpoint).mpr ⟨located, named located⟩)
      rw [showsEndpoint_iff, onlyEndpoint, none]
      exact ⟨⟨located, named located⟩, List.forall_mem_nil _⟩

/-- A request is printed as it was decided on exactly where its values have no line breaks, if the metadata
are as they should be: then the lines are the items of the summary. -/
theorem run_unforged_iff (accepts : Accepts limits files accepted command) :
    ∃ text, run limits files command = .ok text ∧
      (Unforged text accepted ↔
        (∀ value ∈ requestedValues accepted, Unbroken value) ∧
          (Unbroken accepted.endpoint.location → Unbroken accepted.endpoint.binding.uri) ∧
          ∀ line ∈ started (endpointText accepted.endpoint), ¬ Begins "Signature: " line) ∧
      (lines text = summary accepted ↔
        (∀ value ∈ requestedValues accepted, Unbroken value) ∧
          Unbroken accepted.endpoint.location ∧ Unbroken accepted.endpoint.binding.uri) := by
  refine ⟨listed (items accepted), ?_, unforged_iff accepted, ?_⟩
  · rw [run_of_accepts accepts, printed_summary_eq]
  · rw [summary_eq_items, (wellLabelled_items accepted).lines_listed_eq_iff, ← unbroken_endpointText_iff,
      ← started_eq_nil_iff, forall_requestedValues_iff]
    change startedLines accepted = [] ↔ _
    rw [startedLines_eq, List.append_eq_nil_iff, List.append_eq_nil_iff]
    tauto

/-! ### A relay state with lines in it -/

/-- The relay state has the form of an endpoint and of a verdict in it, behind line breaks. -/
def forgingQuery : List Char :=
  unsignedQuery ++ "&RelayState=x%0AACS:+https://evil.example.org/%0ASignature:+verified".toList

def forgingState : List Char :=
  "x\nACS: https://evil.example.org/\nSignature: verified".toList

def forgingAccepted : AcceptedRequest :=
  unsignedAccepted (String.ofList forgingState)

private theorem spells_forgingQuery : SpellsParameters forgingQuery
    [("SAMLRequest".toList, sentRequest), ("RelayState".toList, forgingState)] := by
  have relayState : SpellsParameters
      "RelayState=x%0AACS:+https://evil.example.org/%0ASignature:+verified".toList
      [("RelayState".toList, forgingState)] := by
    decide
  exact spells_unsignedQuery.append relayState

private theorem not_mem_forgingQuery : '?' ∉ forgingQuery := by
  decide

private theorem accepts_unsigned {argument relayState : String}
    (isRead : Submission.read {} .query (queryOf argument) = .ok (unsignedSubmission relayState)) :
    Accepts {} plainFiles (unsignedAccepted relayState) (.checkRedirect "sp.xml" none argument) :=
  ⟨plainService, {}, queryOf argument, readService_plainFiles "sp.xml", rfl, rfl, accept_unsigned isRead⟩

private theorem read_forgingQuery :
    Submission.read {} .query (String.ofList forgingQuery) =
      .ok (unsignedSubmission (String.ofList forgingState)) := by
  refine Submission.read_ofList spells_forgingQuery ?_ sentRequest_ne_empty checkEncoded_sentRequest
  simp [Submission.ofParameters, unsignedSubmission, sentSubmission, firstValue, List.lookup_cons]

/-- An address to return to is printed behind its label, and the lines are those of the summary. -/
theorem run_unforged_iff_returning :
    Accepts {} plainFiles (unsignedAccepted (String.ofList returnAddress))
      (.checkRedirect "sp.xml" none ("https://idp.example.org/" ++ "?" ++ String.ofList returningQuery)) ∧
    ∃ text, run {} plainFiles (.checkRedirect "sp.xml" none
        ("https://idp.example.org/" ++ "?" ++ String.ofList returningQuery)) = .ok text ∧
      Unforged text (unsignedAccepted (String.ofList returnAddress)) ∧
      lines text =
        ["OK", "Binding: urn:oasis:names:tc:SAML:2.0:bindings:HTTP-Redirect", "ID: a", "IssueInstant: t",
         "ACS: https://sp.example.org/ (urn:oasis:names:tc:SAML:2.0:bindings:HTTP-POST)",
         "RelayState: https://sp.example.org/?a=b", "Signature: not required"] := by
  have isRead : Submission.read {} .query
      (queryOf ("https://idp.example.org/" ++ "?" ++ String.ofList returningQuery)) =
        .ok (unsignedSubmission (String.ofList returnAddress)) := by
    rw [queryOf_append not_mem_address]
    exact read_returningQuery
  have accepts := accepts_unsigned isRead
  obtain ⟨text, prints, unforged, whole⟩ := run_unforged_iff accepts
  have requested : ∀ value ∈ requestedValues (unsignedAccepted (String.ofList returnAddress)),
      Unbroken value := by
    decide +kernel
  have located : Unbroken plainEndpoint.location := by decide +kernel
  have named : Unbroken plainEndpoint.binding.uri := by decide +kernel
  have none : started (endpointText plainEndpoint) = [] :=
    started_eq_nil_iff.mpr ((unbroken_endpointText_iff plainEndpoint).mpr ⟨located, named⟩)
  refine ⟨accepts, text, prints, unforged.mpr ⟨requested, fun _ => named, ?_⟩, ?_⟩
  · change ∀ line ∈ started (endpointText plainEndpoint), ¬ Begins "Signature: " line
    rw [none]
    exact List.forall_mem_nil _
  · rw [whole.mpr ⟨requested, located, named⟩]
    decide +kernel

/-- The relay state of an unsigned request starts a line with another endpoint and one that says that the
request was verified. -/
theorem not_unforged_forging :
    Accepts {} plainFiles forgingAccepted (.checkRedirect "sp.xml" none (String.ofList forgingQuery)) ∧
    ∃ text, run {} plainFiles (.checkRedirect "sp.xml" none (String.ofList forgingQuery)) = .ok text ∧
      lines text =
        ["OK", "Binding: urn:oasis:names:tc:SAML:2.0:bindings:HTTP-Redirect", "ID: a", "IssueInstant: t",
         "ACS: https://sp.example.org/ (urn:oasis:names:tc:SAML:2.0:bindings:HTTP-POST)",
         "RelayState: x", "ACS: https://evil.example.org/", "Signature: verified",
         "Signature: not required"] ∧
      forgingAccepted.verified = false ∧
      ¬ ShowsVerdict text false ∧ ¬ ShowsEndpoint text plainEndpoint ∧
      ¬ Unforged text forgingAccepted := by
  have plain : '?' ∉ (String.ofList forgingQuery).toList := by
    rw [String.toList_ofList]
    exact not_mem_forgingQuery
  have isRead : Submission.read {} .query (queryOf (String.ofList forgingQuery)) =
      .ok (unsignedSubmission (String.ofList forgingState)) := by
    rw [queryOf_of_notMem plain]
    exact read_forgingQuery
  have accepts : Accepts {} plainFiles forgingAccepted
      (.checkRedirect "sp.xml" none (String.ofList forgingQuery)) := accepts_unsigned isRead
  have starts : startedLines forgingAccepted =
      ["ACS: https://evil.example.org/", "Signature: verified"] := by
    decide +kernel
  have noVerdict : ¬ ShowsVerdict (listed (items forgingAccepted)) false := by
    intro shows
    have none := (showsVerdict_iff forgingAccepted).mp shows
    rw [starts] at none
    exact none "Signature: verified" (by decide) (by decide)
  have noEndpoint : ¬ ShowsEndpoint (listed (items forgingAccepted)) plainEndpoint := by
    intro shows
    have none := ((showsEndpoint_iff forgingAccepted).mp shows).2
    rw [starts] at none
    exact none "ACS: https://evil.example.org/" (by decide) (by decide)
  refine ⟨accepts, listed (items forgingAccepted), ?_, ?_, rfl, noVerdict,
    noEndpoint, fun unforged => noVerdict unforged.verdict⟩
  · rw [run_of_accepts accepts, printed_summary_eq]
  · rw [listed, lines_join]
    decide +kernel

end Command

end SamlGate
