import SamlGate.Proofs.Codec.Spelling
import SamlGate.Proofs.Login.QuerySignature
import SamlGate.Proofs.Login.Submission

/-!
The covered query as a query.

A covered query is itself in form encoding and is read as the parameters that it is put together from. With
a signature behind it, it is a query that can be sent. Of the queries that say the same, it is the one whose
components stand as they are written, so a sender who spells them so signs what is verified.
-/

namespace SamlGate

open Outcome

variable {limits : Limits} {request relayState algorithm signature : String}

/-! ### Reading the covered query -/

def signedParameters (request relayState algorithm : String) : List (String × String) :=
  ("SAMLRequest", request) ::
    (if relayState = "" then [] else [("RelayState", relayState)]) ++ [("SigAlg", algorithm)]

private theorem signedQuery_eq (request relayState algorithm : String) :
    signedQuery request relayState algorithm =
      String.ofList (writtenParameters (signedParameters request relayState algorithm)) := by
  have requestName : Percent.encode "SAMLRequest" = "SAMLRequest" := by rfl
  have stateName : Percent.encode "RelayState" = "RelayState" := by rfl
  have algorithmName : Percent.encode "SigAlg" = "SigAlg" := by rfl
  rw [← String.toList_inj, String.toList_ofList]
  unfold signedQuery writtenParameters signedParameters
  by_cases absent : relayState = ""
  · simp [absent, writtenParameter, requestName, algorithmName, List.intercalate]
  · simp [absent, writtenParameter, requestName, stateName, algorithmName, List.intercalate]

private theorem readParameters_signedQuery (request relayState algorithm : String) :
    readParameters (signedQuery request relayState algorithm) =
      .ok (signedParameters request relayState algorithm) := by
  rw [signedQuery_eq, readParameters_written]

/-! ### A signature behind it -/

private theorem pieces_append (left right : String) :
    pieces (left ++ "&" ++ right) = pieces left ++ pieces right := by
  unfold pieces
  rw [String.toList_append, String.toList_append, List.append_assoc]
  change ((left.toList ++ '&' :: right.toList).splitOn '&').filter _ = _
  rw [List.splitOn_eq_splitOnP, List.splitOnP_append_cons _ _ (by decide), List.filter_append]
  rfl

private theorem readParameters_append {left right : String} {before after : List (String × String)}
    (leftRead : readParameters left = .ok before) (rightRead : readParameters right = .ok after) :
    readParameters (left ++ "&" ++ right) = .ok (before ++ after) := by
  unfold readParameters at leftRead rightRead ⊢
  rw [pieces_append, List.mapM_append, leftRead, rightRead]
  rfl

private theorem readParameters_single {name text value : String} (written : Percent.encode name = name)
    (free : '&' ∉ text.toList) (isRead : Percent.decode text = .ok value) :
    readParameters (name ++ "=" ++ text) = .ok [(name, value)] := by
  have nameFree (separator : Char) (separates : Percent.isSeparator separator = true) :
      separator ∉ name.toList :=
    written ▸ Percent.separator_not_mem_encode separates name
  have nameRead : Percent.decode name = .ok name := by
    have roundTrip := Percent.decode_encode name
    rw [written] at roundTrip
    exact roundTrip
  have characters : (name ++ "=" ++ text).toList = name.toList ++ '=' :: text.toList := by simp
  have noneIn : '&' ∉ name.toList ++ '=' :: text.toList := by
    simp [nameFree '&' rfl, free]
  have whole : ∀ character ∈ name.toList ++ '=' :: text.toList, (character == '&') = false := by
    intro character member
    exact beq_eq_false_iff_ne.mpr (ne_of_mem_of_not_mem member noneIn)
  have single : pieces (name ++ "=" ++ text) = [name.toList ++ '=' :: text.toList] := by
    unfold pieces
    rw [characters, List.splitOn_eq_splitOnP, List.splitOnP_eq_singleton whole]
    simp
  have parameter : readParameter (name.toList ++ '=' :: text.toList) = .ok (name, value) := by
    unfold readParameter
    rw [divided_append (nameFree '=' rfl)]
    simp [nameRead, isRead, bind, Except.bind]
  unfold readParameters
  rw [single, List.mapM_cons, parameter]
  rfl

private theorem readParameters_signed {text : String} (free : '&' ∉ text.toList)
    (isRead : Percent.decode text = .ok signature) :
    readParameters (signedQuery request relayState algorithm ++ "&Signature=" ++ text) =
      .ok (signedParameters request relayState algorithm ++ [("Signature", signature)]) := by
  have single := @readParameters_single "Signature" text signature (by rfl) free isRead
  have divides : signedQuery request relayState algorithm ++ "&Signature=" ++ text =
      signedQuery request relayState algorithm ++ "&" ++ ("Signature" ++ "=" ++ text) := by
    rw [← String.toList_inj]
    simp
  rw [divides]
  exact readParameters_append (readParameters_signedQuery request relayState algorithm) single

/-- What is read of a covered query with a signature behind it. -/
theorem Submission.read_signed_iff {text : String} {submission : Submission} (free : '&' ∉ text.toList)
    (isRead : Percent.decode text = .ok signature) :
    read limits .query (signedQuery request relayState algorithm ++ "&Signature=" ++ text) = .ok submission ↔
      request ≠ "" ∧ request.utf8ByteSize ≤ limits.encoded.toNat ∧
        submission = ⟨.query, request, "", relayState, algorithm, signature⟩ := by
  have made : ofParameters .query
      (signedParameters request relayState algorithm ++ [("Signature", signature)]) =
        ⟨.query, request, "", relayState, algorithm, signature⟩ := by
    unfold ofParameters signedParameters
    by_cases absent : relayState = ""
    · simp [absent, firstValue, List.lookup_cons]
    · simp [absent, firstValue, List.lookup_cons]
  change readParameters _ >>= (fun parameters => admitted limits (ofParameters .query parameters)) = _ ↔ _
  rw [readParameters_signed free isRead]
  change admitted limits (ofParameters .query _) = _ ↔ _
  rw [made]
  exact admitted_eq_ok_iff

/-- A covered query is read as its parameters, in order, and as no others, so no two of different values are
the same. With a written signature behind it, it is read as a submission of the four values. -/
theorem Submission.read_signedQuery (request relayState algorithm : String) :
    readParameters (signedQuery request relayState algorithm) =
      .ok (("SAMLRequest", request) ::
        (if relayState = "" then [] else [("RelayState", relayState)]) ++ [("SigAlg", algorithm)]) ∧
    (∀ requestToo relayStateToo algorithmToo,
      signedQuery request relayState algorithm = signedQuery requestToo relayStateToo algorithmToo ↔
        request = requestToo ∧ relayState = relayStateToo ∧ algorithm = algorithmToo) ∧
    ∀ (limits : Limits) (signature : String) (submission : Submission),
      read limits .query
          (signedQuery request relayState algorithm ++ "&Signature=" ++ Percent.encode signature) =
        .ok submission ↔
      request ≠ "" ∧ request.utf8ByteSize ≤ limits.encoded.toNat ∧
        submission = ⟨.query, request, "", relayState, algorithm, signature⟩ := by
  refine ⟨readParameters_signedQuery request relayState algorithm, ?_, ?_⟩
  · intro requestToo relayStateToo algorithmToo
    exact signedQuery_inj
  · intro limits signature submission
    have free := @Percent.separator_not_mem_encode '&' rfl signature
    exact read_signed_iff free (Percent.decode_encode signature)

/-! ### Spellings that are signed as they are -/

/-- What a signature is verified against: it is there, its method is known, the key is registered, and over
the covered octets the method verifies it. -/
theorem verifyQuery_eq_ok_iff {service : ServiceProvider} :
    verifyQuery limits service request relayState signature algorithm = .ok () ↔
      request ≠ "" ∧ request.utf8ByteSize ≤ limits.encoded.toNat ∧ signature ≠ "" ∧
        ∃ method value key, querySignatureMethod algorithm = .ok method ∧
          Base64.decode? signature = some value ∧ service.signingKey = .ok key ∧
          method.verifies key.key (Octets.ofText (signedQuery request relayState algorithm)) value =
            true := by
  constructor
  · intro verifies
    unfold verifyQuery at verifies
    split at verifies
    · cases verifies
    rename_i present
    rcases bind_eq_ok_iff.mp verifies with ⟨_, short, verifies⟩
    split at verifies
    · cases verifies
    rename_i signed
    rcases bind_eq_ok_iff.mp verifies with ⟨method, known, verifies⟩
    split at verifies
    · cases verifies
    rename_i value decoded
    rcases bind_eq_ok_iff.mp verifies with ⟨key, registered, verifies⟩
    dsimp only at verifies
    split at verifies
    · rename_i verified
      exact ⟨present, Limits.checkEncoded_eq_ok_iff.mp short, signed, method, value, key, known, decoded,
        registered, verified⟩
    · cases verifies
  · intro given
    rcases given with ⟨present, short, signed, method, value, key, known, decoded, registered, verified⟩
    have passes := Limits.checkEncoded_eq_ok_iff.mpr short
    unfold verifyQuery
    rw [if_neg present, passes, decoded]
    simp [bind, Except.bind, signed, known, registered, verified]

/-- A query as its sender spelled it, less the signature: three components, of which the middle one may be
left out. -/
structure SpelledQuery where
  request : String
  relayState : Option String
  algorithm : String

def SpelledQuery.text (query : SpelledQuery) : String :=
  "SAMLRequest=" ++ query.request
    ++ (match query.relayState with
      | some component => "&RelayState=" ++ component
      | none => "")
    ++ "&SigAlg=" ++ query.algorithm

/-- The component reads as the value, and stands as it is written. -/
def Percent.Writes (component value : String) : Prop :=
  decode component = .ok value ∧ AsWritten component.toList

private theorem Percent.Writes.encode_eq {component value : String} (writes : Writes component value) :
    encode value = component :=
  (encode_eq_iff_of_decode writes.1).mpr writes.2

/-- The components write these values. A relay state is left out or not empty. -/
structure SpelledQuery.States (query : SpelledQuery) (request relayState algorithm : String) : Prop where
  requestWritten : Percent.Writes query.request request
  relayStateWritten : ∀ component, query.relayState = some component →
    component ≠ "" ∧ Percent.Writes component relayState
  relayStateEmpty : query.relayState = none → relayState = ""
  algorithmWritten : Percent.Writes query.algorithm algorithm

private theorem SpelledQuery.States.text_eq {query : SpelledQuery}
    (stated : query.States request relayState algorithm) :
    query.text = signedQuery request relayState algorithm := by
  unfold text signedQuery
  rw [stated.requestWritten.encode_eq, stated.algorithmWritten.encode_eq]
  cases spelled : query.relayState with
  | none =>
      rw [if_pos (stated.relayStateEmpty spelled)]
  | some component =>
      rcases stated.relayStateWritten component spelled with ⟨nonempty, writes⟩
      have present : relayState ≠ "" := by
        rintro rfl
        exact nonempty writes.encode_eq.symm
      rw [if_neg present, writes.encode_eq]

/-- A spelling is what its value is written as exactly when it stands as written. So a query whose components
stand as written is read as what they say, and what its signature is verified against is the query itself, up
to the signature. -/
theorem SpelledQuery.covered_as_spelled :
    (∀ component value, Percent.decode component = .ok value →
      (Percent.encode value = component ↔ Percent.AsWritten component.toList)) ∧
    ∀ (query : SpelledQuery) (request relayState algorithm text signature : String),
      query.States request relayState algorithm → '&' ∉ text.toList → Percent.decode text = .ok signature →
      ∀ (limits : Limits) (service : ServiceProvider),
        (∀ submission, Submission.read limits .query (query.text ++ "&Signature=" ++ text) = .ok submission ↔
          request ≠ "" ∧ request.utf8ByteSize ≤ limits.encoded.toNat ∧
            submission = ⟨.query, request, "", relayState, algorithm, signature⟩) ∧
        signedQuery request relayState algorithm = query.text ∧
        (verifyQuery limits service request relayState signature algorithm = .ok () ↔
          request ≠ "" ∧ request.utf8ByteSize ≤ limits.encoded.toNat ∧ signature ≠ "" ∧
            ∃ method value key, querySignatureMethod algorithm = .ok method ∧
              Base64.decode? signature = some value ∧ service.signingKey = .ok key ∧
              method.verifies key.key (Octets.ofText query.text) value = true) := by
  refine ⟨fun component value isRead => Percent.encode_eq_iff_of_decode isRead, ?_⟩
  intro query request relayState algorithm text signature stated free isRead limits service
  rw [stated.text_eq]
  refine ⟨?_, rfl, verifyQuery_eq_ok_iff⟩
  intro submission
  exact Submission.read_signed_iff free isRead

private theorem Percent.writes_ofList {component value : List Char}
    (written : (Octets.ofText (String.ofList value)).flatMap encodedOctet = component) :
    Writes (String.ofList component) (String.ofList value) := by
  have same : encode (String.ofList value) = String.ofList component := by
    rw [encode, written]
  have isRead := decode_encode (String.ofList value)
  rw [same] at isRead
  exact ⟨isRead, (encode_eq_iff_of_decode isRead).mp same⟩

def sentSpelling : SpelledQuery where
  request := String.ofList (["AWYAmf88cDpBdXRoblJlcXVlc3QgeG1sbnM6cD0i",
     "dXJuOm9hc2lzOm5hbWVzOnRjOlNBTUw6Mi4wOnBy",
     "b3RvY29sIiBJRD0iYSIgVmVyc2lvbj0iMi4wIiBJ",
     "c3N1ZUluc3RhbnQ9InQiLz4%3D"].flatMap String.toList)
  relayState := some (String.ofList "r+s".toList)
  algorithm := String.ofList (["http%3A%2F%2Fwww.w3.org%2F2000%2F09%2Fx",
     "mldsig%23rsa-sha1"].flatMap String.toList)

def sentSignatureSpelling : List Char :=
  ["ExecGCfHDbo1cQQ4vXwLM0oKVVKjn6epLRAzmPcT",
     "1QuCtSQENDA5Fz4tUzOy%2FQ%3D%3D"].flatMap String.toList

private theorem sentSpelling_states :
    sentSpelling.States (String.ofList sentRequest) "r s" (String.ofList sentAlgorithm) where
  requestWritten := Percent.writes_ofList (by decide +kernel)
  relayStateWritten := by
    intro component spelled
    cases spelled
    exact ⟨by decide, @Percent.writes_ofList _ "r s".toList (by decide +kernel)⟩
  relayStateEmpty := nofun
  algorithmWritten := Percent.writes_ofList (by decide +kernel)

/-- The sender's query is covered as it was sent, and its relay state would not be with an escaped space. -/
theorem SpelledQuery.covered_as_spelled_sent :
    Percent.AsWritten "r+s".toList ∧ ¬ Percent.AsWritten "r%20s".toList ∧
      Submission.read {} .query
          (sentSpelling.text ++ "&Signature=" ++ String.ofList sentSignatureSpelling) =
        .ok (sentSubmission "") ∧
      ∃ method value key, sender.signingKey = .ok key ∧
        SignatureMethod.verifies method key.key (Octets.ofText sentSpelling.text) value = true := by
  have plain : Percent.Writes "r+s" "r s" := @Percent.writes_ofList _ "r s".toList (by decide +kernel)
  have escaped : Percent.decode "r%20s" = .ok "r s" :=
    @Percent.decode_ofList "r%20s".toList "r s".toList (by decide +kernel)
  have other : Percent.encode "r s" ≠ "r%20s" := by
    rw [plain.encode_eq]
    decide
  rcases covered_as_spelled with ⟨exactly, checked⟩
  have signature : Percent.Writes (String.ofList sentSignatureSpelling) (String.ofList sentSignature) :=
    Percent.writes_ofList (by decide +kernel)
  have free : '&' ∉ (String.ofList sentSignatureSpelling).toList := by
    rw [String.toList_ofList]
    decide +kernel
  rcases checked sentSpelling (String.ofList sentRequest) "r s" (String.ofList sentAlgorithm) _ _
    sentSpelling_states free signature.1 {} sender with ⟨reads, _, verifies⟩
  rcases verifies.mp verifyQuery_sent with ⟨present, short, _, method, value, key, _, _, registered, verified⟩
  refine ⟨(exactly _ _ plain.1).mp plain.encode_eq, ?_, (reads _).mpr ⟨present, short, rfl⟩, method, value,
    key, registered, verified⟩
  intro asWritten
  exact other ((exactly _ _ escaped).mpr asWritten)

end SamlGate
