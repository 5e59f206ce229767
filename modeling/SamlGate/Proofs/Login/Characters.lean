import SamlGate.Proofs.Login.Acceptance

/-!
Parameters given as characters.

What is read of a text is read of its characters. Here the readers of parameters and keys are followed for a
text that is given by its characters, so that a result about them can be computed without the text.
-/

namespace SamlGate

open Outcome

theorem Octets.ofText_ofList (characters : List Char) :
    ofText (String.ofList characters) = characters.flatMap String.utf8EncodeChar := by
  unfold ofText String.toUTF8
  rw [String.toByteArray_ofList, List.utf8Encode]
  simp

theorem Percent.decode_ofList {component value : List Char}
    (spelled : octetsOnto [] component = some (Octets.ofText (String.ofList value))) :
    decode (String.ofList component) = .ok (String.ofList value) := by
  unfold decode octets?
  rw [String.toList_ofList, spelled]
  simp

def PieceSpells (piece : List Char) (parameter : List Char × List Char) : Prop :=
  Percent.octetsOnto [] (divided piece).1 = some (Octets.ofText (String.ofList parameter.1)) ∧
    Percent.octetsOnto [] (divided piece).2 = some (Octets.ofText (String.ofList parameter.2))

instance : DecidableRel PieceSpells :=
  fun _ _ => inferInstanceAs (Decidable (_ ∧ _))

theorem readParameter_ofList {piece : List Char} {parameter : List Char × List Char}
    (spells : PieceSpells piece parameter) :
    readParameter piece = .ok (String.ofList parameter.1, String.ofList parameter.2) := by
  unfold readParameter
  simp [Percent.decode_ofList spells.1, Percent.decode_ofList spells.2, bind, Except.bind]

/-- The raw text spells these names and values in order. -/
def SpellsParameters (raw : List Char) (parameters : List (List Char × List Char)) : Prop :=
  List.Forall₂ PieceSpells ((raw.splitOn '&').filter fun piece => !piece.isEmpty) parameters

instance : DecidableRel SpellsParameters :=
  fun _ _ => inferInstanceAs (Decidable (List.Forall₂ _ _ _))

theorem SpellsParameters.append {raw rawToo : List Char}
    {parameters parametersToo : List (List Char × List Char)} (spells : SpellsParameters raw parameters)
    (spellsToo : SpellsParameters rawToo parametersToo) :
    SpellsParameters (raw ++ '&' :: rawToo) (parameters ++ parametersToo) := by
  unfold SpellsParameters
  rw [List.splitOn_append_cons_self, List.filter_append]
  exact List.rel_append spells spellsToo

theorem readParameters_ofList {raw : List Char} {parameters : List (List Char × List Char)}
    (spells : SpellsParameters raw parameters) :
    readParameters (String.ofList raw) =
      .ok (parameters.map fun parameter => (String.ofList parameter.1, String.ofList parameter.2)) := by
  unfold readParameters pieces
  rw [String.toList_ofList]
  apply mapM_eq_ok_iff.mpr
  rw [List.forall₂_map_right_iff]
  apply spells.imp
  intro piece parameter spelled
  exact readParameter_ofList spelled

theorem queryDocument_ofList {limits : Limits} {parameter text : List Char} {encoding : String}
    {stream : Octets} (stated : encoding = "" ∨ encoding = compressedUri)
    (short : limits.checkEncoded (String.ofList parameter) = .ok ())
    (decoded : Base64.decodeOnto [] (parameter.filter fun character => !Text.isAsciiBlank character) =
      some stream)
    (inflated : limits.inflate stream = .ok (Octets.ofText (String.ofList text))) :
    queryDocument limits (String.ofList parameter) encoding = .ok (String.ofList text) := by
  have octets : parameterOctets limits (String.ofList parameter) = .ok stream := by
    unfold parameterOctets Base64.decodeWrapped? Base64.decode? Text.compact
    rw [short, String.toList_ofList, String.toList_ofList, decoded]
    rfl
  have spelled : documentText (Octets.ofText (String.ofList text)) = .ok (String.ofList text) := by
    simp [documentText]
  unfold queryDocument
  rw [if_neg (by tauto)]
  apply bind_eq_ok_iff.mpr ⟨stream, lift_eq_ok_iff.mpr octets, ?_⟩
  exact bind_eq_ok_iff.mpr ⟨_, inflated, lift_eq_ok_iff.mpr spelled⟩

theorem VerificationKey.ofText_ofList {characters : List Char} {octets : Octets}
    (bare : "-----BEGIN".toList.isPrefixOf (Text.trimmed characters) = false)
    (decoded : Base64.decodeOnto []
      ((Text.trimmed characters).filter fun character => !Text.isAsciiBlank character) = some octets) :
    ofText (String.ofList characters) = ofOctets octets := by
  unfold ofText Base64.decodeWrapped? Base64.decode? Text.compact Text.trim
  simp only [String.toList_ofList]
  rw [bare, decoded]
  rfl

theorem VerificationKey.exists_ofText_ofList {characters : List Char} {suits : VerificationKey → Bool}
    (bare : "-----BEGIN".toList.isPrefixOf (Text.trimmed characters) = false)
    (spelled : (Base64.decodeOnto []
      ((Text.trimmed characters).filter fun character => !Text.isAsciiBlank character)).any
        (fun octets => (ofOctets octets).toOption.any suits) = true) :
    ∃ key, ofText (String.ofList characters) = .ok key ∧ suits key = true := by
  obtain ⟨octets, decoded, hasKey⟩ := (Option.any_eq_true _ _).mp spelled
  obtain ⟨key, isKey, suited⟩ := (Option.any_eq_true _ _).mp hasKey
  refine ⟨key, ?_, suited⟩
  rw [ofText_ofList bare decoded]
  cases outcome : ofOctets octets with
  | error _ => simp [outcome, Except.toOption] at isKey
  | ok found => simpa [outcome, Except.toOption] using isKey

theorem verifyQuery_ofList {limits : Limits} {service : ServiceProvider}
    {request relayState algorithm : String} {signature : List Char} {method : SignatureMethod}
    {value : Octets} {key : VerificationKey} (present : request ≠ "")
    (short : limits.checkEncoded request = .ok ()) (signed : String.ofList signature ≠ "")
    (known : querySignatureMethod algorithm = .ok method)
    (decoded : Base64.decodeOnto [] signature = some value) (registered : service.signingKey = .ok key)
    (verifies : method.verifies key.key (Octets.ofText (signedQuery request relayState algorithm)) value =
      true) :
    verifyQuery limits service request relayState (String.ofList signature) algorithm = .ok () := by
  unfold verifyQuery Base64.decode?
  rw [if_neg present, short, String.toList_ofList, decoded]
  simp [bind, Except.bind, signed, known, registered, verifies]

theorem Submission.read_ofList {limits : Limits} {carrier : Carrier} {raw : List Char}
    {parameters : List (List Char × List Char)} {submission : Submission}
    (spells : SpellsParameters raw parameters)
    (counts : Submission.ofParameters carrier
      (parameters.map fun parameter => (String.ofList parameter.1, String.ofList parameter.2)) = submission)
    (present : submission.request ≠ "") (short : limits.checkEncoded submission.request = .ok ()) :
    Submission.read limits carrier (String.ofList raw) = .ok submission := by
  unfold Submission.read
  rw [readParameters_ofList spells]
  simp [bind, Except.bind, counts, present, short]

end SamlGate
