import Mathlib.Data.List.TakeWhile
import Mathlib.Logic.Relation
import SamlGate.Proofs.Codec.Percent
import SamlGate.Proofs.Codec.Reading
import SamlGate.Proofs.Login.Characters
import SamlGate.Proofs.Login.Payload

/-!
What is read of a raw text.

Every piece of the text must spell a name and a value, whether or not it counts. Of the pieces that spell
one name the first counts, and of all names only those that the carrier knows. What comes later under a
name, or under a name that is not known, may be there or not.
-/

namespace SamlGate

open Outcome

/-! ### Pieces -/

/-- The piece divides into this name and this value at its first equals sign. Without one it is all name. -/
def Divides (piece name value : List Char) : Prop :=
  '=' ∉ name ∧ (piece = name ++ '=' :: value ∨ piece = name ∧ value = [])

private theorem divided_cons_of_ne {character : Char} (other : character ≠ '=') (piece : List Char) :
    divided (character :: piece) = (character :: (divided piece).1, (divided piece).2) := by
  simp [divided, other]

private theorem divides_divided (piece : List Char) :
    Divides piece (divided piece).1 (divided piece).2 := by
  induction piece with
  | nil =>
      exact ⟨List.not_mem_nil, .inr ⟨rfl, rfl⟩⟩
  | cons character piece ih =>
      by_cases sign : character = '='
      · subst sign
        exact ⟨List.not_mem_nil, .inl rfl⟩
      · rw [divided_cons_of_ne sign]
        rcases ih with ⟨free, parts⟩
        refine ⟨List.not_mem_cons_of_ne_of_not_mem (Ne.symm sign) free, ?_⟩
        rcases parts with withSign | ⟨whole, noValue⟩
        · exact .inl (congrArg (character :: ·) withSign)
        · exact .inr ⟨congrArg (character :: ·) whole, noValue⟩

private theorem Divides.eq_divided {piece name value : List Char} (divides : Divides piece name value) :
    divided piece = (name, value) := by
  rcases divides with ⟨free, withSign | ⟨whole, noValue⟩⟩
  · rw [withSign, divided_append free]
  · have passes (character : Char) (member : character ∈ name) : decide (character ≠ '=') = true :=
      decide_eq_true (ne_of_mem_of_not_mem member free)
    rw [whole, noValue]
    unfold divided
    rw [List.takeWhile_eq_self_iff.mpr passes, List.dropWhile_eq_nil_iff.mpr passes]
    rfl

/-- The component stands for this value: every percent sign in it begins an escape, and its octets, with
spaces for plus signs, are those of the value. -/
def Percent.StandsFor (component : List Char) (value : String) : Prop :=
  WellEscaped component ∧ bytewise component = Octets.ofText value

private theorem Percent.decode_eq_ok_iff_standsFor {component : List Char} {value : String} :
    decode (String.ofList component) = .ok value ↔ StandsFor component value := by
  rw [decode_eq_ok_iff_bytewise, String.toList_ofList]
  rfl

def ReadsAs (piece : List Char) (name value : String) : Prop :=
  ∃ nameText valueText, Divides piece nameText valueText ∧
    Percent.StandsFor nameText name ∧ Percent.StandsFor valueText value

def Readable (piece : List Char) : Prop :=
  ∃ name value, ReadsAs piece name value

theorem readParameter_eq_ok_iff {piece : List Char} {parameter : String × String} :
    readParameter piece = .ok parameter ↔ ReadsAs piece parameter.1 parameter.2 := by
  have divides := divides_divided piece
  unfold readParameter
  dsimp only
  rw [bind_eq_ok_iff]
  constructor
  · intro given
    rcases given with ⟨name, nameRead, remaining⟩
    rcases bind_eq_ok_iff.mp remaining with ⟨value, valueRead, same⟩
    cases same
    exact ⟨_, _, divides, Percent.decode_eq_ok_iff_standsFor.mp nameRead,
      Percent.decode_eq_ok_iff_standsFor.mp valueRead⟩
  · intro given
    rcases given with ⟨nameText, valueText, dividesToo, nameStands, valueStands⟩
    rw [dividesToo.eq_divided]
    refine ⟨parameter.1, Percent.decode_eq_ok_iff_standsFor.mpr nameStands, ?_⟩
    exact bind_eq_ok_iff.mpr ⟨parameter.2, Percent.decode_eq_ok_iff_standsFor.mpr valueStands, rfl⟩

/-! ### Faults -/

private theorem Percent.kind_of_decode {component : String} {fault : Error}
    (fails : decode component = .error fault) : fault.kind = .malformedInput := by
  unfold decode at fails
  split at fails
  · cases fails
    rfl
  · split at fails
    · cases fails
    · cases fails
      rfl

private theorem kind_of_readParameter {piece : List Char} {fault : Error}
    (fails : readParameter piece = .error fault) : fault.kind = .malformedInput := by
  unfold readParameter at fails
  dsimp only at fails
  rcases bind_eq_error_iff.mp fails with inName | ⟨name, _, remaining⟩
  · exact Percent.kind_of_decode inName
  · rcases bind_eq_error_iff.mp remaining with inValue | ⟨value, _, impossible⟩
    · exact Percent.kind_of_decode inValue
    · cases impossible

/-! ### What counts -/

/-- This is the value of the first piece that reads under the name. -/
def FirstUnder (pieces : List (List Char)) (name value : String) : Prop :=
  ∃ front piece back, pieces = front ++ piece :: back ∧ ReadsAs piece name value ∧
    ∀ earlier ∈ front, ∀ other, ¬ ReadsAs earlier name other

/-- What counts under a name is the first value, or the empty one where no piece reads under it. -/
def CountsAs (pieces : List (List Char)) (name value : String) : Prop :=
  FirstUnder pieces name value ∨ (∀ piece ∈ pieces, ∀ other, ¬ ReadsAs piece name other) ∧ value = ""

theorem firstUnder_cons_iff {piece : List Char} {pieces : List (List Char)} {name value : String} :
    FirstUnder (piece :: pieces) name value ↔
      ReadsAs piece name value ∨ (∀ other, ¬ ReadsAs piece name other) ∧ FirstUnder pieces name value := by
  constructor
  · intro given
    rcases given with ⟨front, first, back, same, reads, none⟩
    cases front with
    | nil =>
        cases same
        exact .inl reads
    | cons earlier front =>
        cases same
        rcases List.forall_mem_cons.mp none with ⟨notHere, notBefore⟩
        exact .inr ⟨notHere, front, first, back, rfl, reads, notBefore⟩
  · intro either
    rcases either with reads | ⟨notHere, front, first, back, same, reads, none⟩
    · exact ⟨[], piece, pieces, rfl, reads, nofun⟩
    · refine ⟨piece :: front, first, back, by rw [same, List.cons_append], reads, ?_⟩
      exact List.forall_mem_cons.mpr ⟨notHere, none⟩

private theorem reads_iff_of_readParameter {piece : List Char} {parameter : String × String}
    (isRead : readParameter piece = .ok parameter) {name value : String} :
    ReadsAs piece name value ↔ parameter = (name, value) := by
  rw [← @readParameter_eq_ok_iff piece (name, value), isRead, Except.ok.injEq]

abbrev ReadAll (pieces : List (List Char)) (parameters : List (String × String)) : Prop :=
  List.Forall₂ (fun piece parameter => readParameter piece = .ok parameter) pieces parameters

theorem ReadAll.lookup_eq_some_iff {pieces : List (List Char)} {parameters : List (String × String)}
    (isRead : ReadAll pieces parameters) {name value : String} :
    parameters.lookup name = some value ↔ FirstUnder pieces name value := by
  induction isRead with
  | nil =>
      simp [FirstUnder]
  | @cons piece parameter pieces parameters first _ ih =>
      rw [firstUnder_cons_iff, List.lookup_cons, ← ih]
      simp only [reads_iff_of_readParameter first]
      by_cases same : name = parameter.1
      · simp [same, Prod.ext_iff]
      · have other : (name == parameter.1) = false := by simpa using same
        simp [other, Prod.ext_iff, Ne.symm same]

theorem ReadAll.lookup_eq_none_iff {pieces : List (List Char)} {parameters : List (String × String)}
    (isRead : ReadAll pieces parameters) {name : String} :
    parameters.lookup name = none ↔ ∀ piece ∈ pieces, ∀ other, ¬ ReadsAs piece name other := by
  induction isRead with
  | nil =>
      simp
  | @cons piece parameter pieces parameters first _ ih =>
      rw [List.forall_mem_cons, List.lookup_cons, ← ih]
      simp only [reads_iff_of_readParameter first]
      by_cases same : name = parameter.1
      · simp [same, Prod.ext_iff]
      · have other : (name == parameter.1) = false := by simpa using same
        simp [other, Prod.ext_iff, Ne.symm same]

theorem ReadAll.firstValue_eq_iff {pieces : List (List Char)} {parameters : List (String × String)}
    (isRead : ReadAll pieces parameters) {name value : String} :
    firstValue parameters name = value ↔ CountsAs pieces name value := by
  unfold firstValue CountsAs
  rw [← isRead.lookup_eq_some_iff, ← isRead.lookup_eq_none_iff]
  cases parameters.lookup name with
  | none =>
      simp [eq_comm]
  | some found =>
      simp

/-! ### The submission -/

def Submission.admitted (limits : Limits) (submission : Submission) : Except Error Submission :=
  if submission.request = "" then .error (.malformed .missingRequest)
  else do
    limits.checkEncoded submission.request
    .ok submission

theorem Submission.admitted_eq_ok_iff {limits : Limits} {submission result : Submission} :
    submission.admitted limits = .ok result ↔
      submission.request ≠ "" ∧ submission.request.utf8ByteSize ≤ limits.encoded.toNat ∧
        result = submission := by
  unfold admitted
  by_cases missing : submission.request = ""
  · simp [missing]
  · rw [if_neg missing, bind_eq_ok_iff, ← Limits.checkEncoded_eq_ok_iff]
    constructor
    · intro given
      rcases given with ⟨_, short, same⟩
      exact ⟨missing, short, (Except.ok.inj same).symm⟩
    · intro given
      rcases given with ⟨_, short, same⟩
      exact ⟨(), short, congrArg Except.ok same.symm⟩

private theorem Submission.kind_of_admitted {limits : Limits} {submission : Submission} {fault : Error}
    (fails : submission.admitted limits = .error fault) : fault.kind = .malformedInput := by
  unfold admitted Limits.checkEncoded at fails
  split at fails
  · cases fails
    rfl
  · split at fails
    · cases fails
      rfl
    · cases fails

def Submission.ofPieces (limits : Limits) (carrier : Carrier) (pieces : List (List Char)) :
    Except Error Submission := do
  let parameters ← pieces.mapM readParameter
  (ofParameters carrier parameters).admitted limits

private theorem Submission.read_eq_ofPieces (limits : Limits) (carrier : Carrier) (raw : String) :
    read limits carrier raw = ofPieces limits carrier (pieces raw) :=
  rfl

private theorem Submission.kind_of_ofPieces {limits : Limits} {carrier : Carrier}
    {pieces : List (List Char)}
    {fault : Error} (fails : ofPieces limits carrier pieces = .error fault) :
    fault.kind = .malformedInput := by
  rcases bind_eq_error_iff.mp fails with inPieces | ⟨parameters, _, notAdmitted⟩
  · rcases exists_input_of_mapM_eq_error inPieces with ⟨piece, _, atPiece⟩
    exact kind_of_readParameter atPiece
  · exact kind_of_admitted notAdmitted

/-- The submission holds what counts in the pieces, and of a form only what is not for a signature. -/
structure Submission.CountsIn (submission : Submission) (carrier : Carrier) (pieces : List (List Char)) :
    Prop where
  carrier_eq : submission.carrier = carrier
  request : CountsAs pieces "SAMLRequest" submission.request
  relayState : CountsAs pieces "RelayState" submission.relayState
  inQuery : carrier = .query → CountsAs pieces "SAMLEncoding" submission.encoding ∧
    CountsAs pieces "SigAlg" submission.signatureAlgorithm ∧
    CountsAs pieces "Signature" submission.signature
  inForm : carrier = .form → submission.encoding = "" ∧ submission.signatureAlgorithm = "" ∧
    submission.signature = ""

theorem ReadAll.ofParameters_eq_iff {carrier : Carrier} {pieces : List (List Char)}
    {parameters : List (String × String)} (isRead : ReadAll pieces parameters) {submission : Submission} :
    Submission.ofParameters carrier parameters = submission ↔ submission.CountsIn carrier pieces := by
  have counts {name value : String} := @isRead.firstValue_eq_iff _ _ name value
  constructor
  · rintro rfl
    cases carrier with
    | query =>
        exact ⟨rfl, counts.mp rfl, counts.mp rfl,
          fun _ => ⟨counts.mp rfl, counts.mp rfl, counts.mp rfl⟩, nofun⟩
    | form =>
        exact ⟨rfl, counts.mp rfl, counts.mp rfl, nofun, fun _ => ⟨rfl, rfl, rfl⟩⟩
  · rcases submission with ⟨carrierToo, request, encoding, relayState, algorithm, signature⟩
    intro given
    rcases given with ⟨same, requestCounts, relayStateCounts, inQuery, inForm⟩
    dsimp only at same requestCounts relayStateCounts inQuery inForm
    subst same
    unfold Submission.ofParameters
    rw [counts.mpr requestCounts, counts.mpr relayStateCounts]
    cases carrierToo with
    | query =>
        rcases inQuery rfl with ⟨encodingCounts, algorithmCounts, signatureCounts⟩
        simp only [counts.mpr encodingCounts, counts.mpr algorithmCounts, counts.mpr signatureCounts]
    | form =>
        rcases inForm rfl with ⟨noEncoding, noAlgorithm, noSignature⟩
        simp only [noEncoding, noAlgorithm, noSignature]

theorem exists_readAll_iff {pieces : List (List Char)} :
    (∃ parameters, ReadAll pieces parameters) ↔ ∀ piece ∈ pieces, Readable piece := by
  induction pieces with
  | nil =>
      exact iff_of_true ⟨[], .nil⟩ nofun
  | cons piece pieces ih =>
      rw [List.forall_mem_cons, ← ih]
      constructor
      · intro given
        rcases given with ⟨_, isRead⟩
        cases isRead with
        | cons first later =>
            exact ⟨⟨_, _, readParameter_eq_ok_iff.mp first⟩, _, later⟩
      · intro given
        rcases given with ⟨⟨name, value, reads⟩, parameters, later⟩
        exact ⟨_, .cons ((@readParameter_eq_ok_iff _ (name, value)).mpr reads) later⟩

/-- A submission is read of pieces exactly when all of them are readable and it holds what counts in them,
among it a request that is neither empty nor too long. -/
theorem Submission.ofPieces_eq_ok_iff {limits : Limits} {carrier : Carrier} {pieces : List (List Char)}
    {submission : Submission} :
    ofPieces limits carrier pieces = .ok submission ↔
      (∀ piece ∈ pieces, Readable piece) ∧ submission.CountsIn carrier pieces ∧
        submission.request ≠ "" ∧ submission.request.utf8ByteSize ≤ limits.encoded.toNat := by
  unfold ofPieces
  rw [bind_eq_ok_iff]
  constructor
  · intro given
    rcases given with ⟨parameters, succeeds, isAdmitted⟩
    have isRead : ReadAll pieces parameters := mapM_eq_ok_iff.mp succeeds
    rcases admitted_eq_ok_iff.mp isAdmitted with ⟨present, short, same⟩
    subst same
    exact ⟨exists_readAll_iff.mp ⟨parameters, isRead⟩, isRead.ofParameters_eq_iff.mp rfl, present, short⟩
  · intro given
    rcases given with ⟨readable, counts, present, short⟩
    rcases exists_readAll_iff.mpr readable with ⟨parameters, isRead⟩
    have same := isRead.ofParameters_eq_iff.mpr counts
    refine ⟨parameters, mapM_eq_ok_iff.mpr isRead, ?_⟩
    rw [same]
    exact admitted_eq_ok_iff.mpr ⟨present, short, rfl⟩

/-! ### What may be added -/

def Carrier.names : Carrier → List String
  | .query => ["SAMLRequest", "SAMLEncoding", "RelayState", "SigAlg", "Signature"]
  | .form => ["SAMLRequest", "RelayState"]

/-- A readable piece is added, under a name that the carrier does not know or that a piece before it reads
under already. -/
def AddsPiece (carrier : Carrier) (pieces added : List (List Char)) : Prop :=
  ∃ front piece back name value, pieces = front ++ back ∧ added = front ++ piece :: back ∧
    ReadsAs piece name value ∧ (name ∈ carrier.names → ∃ earlier ∈ front, ∃ other, ReadsAs earlier name other)

private theorem firstValue_insert {front back : List (String × String)} {name value key : String}
    (hidden : key = name → (front.lookup name).isSome) :
    firstValue (front ++ (name, value) :: back) key = firstValue (front ++ back) key := by
  unfold firstValue
  rw [List.lookup_append, List.lookup_append, List.lookup_cons]
  by_cases same : key = name
  · rcases Option.isSome_iff_exists.mp (hidden same) with ⟨found, isFound⟩
    rw [same, isFound]
    rfl
  · have other : (key == name) = false := by simpa using same
    rw [other]

private theorem Submission.ofParameters_insert {carrier : Carrier} {front back : List (String × String)}
    {name value : String} (hidden : name ∈ carrier.names → (front.lookup name).isSome) :
    ofParameters carrier (front ++ (name, value) :: back) = ofParameters carrier (front ++ back) := by
  have counts (key : String) (known : key ∈ carrier.names) :
      firstValue (front ++ (name, value) :: back) key = firstValue (front ++ back) key :=
    firstValue_insert fun same => hidden (same ▸ known)
  unfold ofParameters
  cases carrier with
  | query =>
      simp only [counts "SAMLRequest" (by decide), counts "SAMLEncoding" (by decide),
        counts "RelayState" (by decide), counts "SigAlg" (by decide), counts "Signature" (by decide)]
  | form =>
      simp only [counts "SAMLRequest" (by decide), counts "RelayState" (by decide)]

private theorem Submission.ofPieces_of_adds {limits : Limits} {carrier : Carrier}
    {pieces added : List (List Char)}
    (adds : AddsPiece carrier pieces added) :
    ofPieces limits carrier added = ofPieces limits carrier pieces := by
  rcases adds with ⟨front, piece, back, name, value, rfl, rfl, reads, hidden⟩
  unfold ofPieces
  rw [List.mapM_append, List.mapM_append, List.mapM_cons,
    (@readParameter_eq_ok_iff _ (name, value)).mpr reads]
  cases frontRead : front.mapM readParameter with
  | error fault =>
      rfl
  | ok frontParameters =>
      cases back.mapM readParameter with
      | error fault =>
          rfl
      | ok backParameters =>
          change admitted limits (ofParameters carrier (frontParameters ++ (name, value) :: backParameters)) =
            admitted limits (ofParameters carrier (frontParameters ++ backParameters))
          rw [ofParameters_insert]
          intro known
          rcases hidden known with ⟨earlier, before, other, readsToo⟩
          have isRead : ReadAll front frontParameters := mapM_eq_ok_iff.mp frontRead
          rw [← Option.ne_none_iff_isSome]
          intro none
          exact isRead.lookup_eq_none_iff.mp none earlier before other readsToo

private theorem Submission.ofPieces_of_additions {limits : Limits} {carrier : Carrier}
    {pieces added : List (List Char)} (additions : Relation.ReflTransGen (AddsPiece carrier) pieces added) :
    ofPieces limits carrier added = ofPieces limits carrier pieces := by
  induction additions with
  | refl =>
      rfl
  | tail _ adds ih =>
      rw [ofPieces_of_adds adds, ih]

/-! ### The whole text -/

/-- What is read of a text is what its grammar says. A submission is read exactly when every piece is readable
and the first request among them is neither empty nor too long; it holds the first values; what is added
behind them or under other names changes nothing; and a piece that is not readable spoils the whole text. -/
theorem Submission.read_by_grammar (limits : Limits) (carrier : Carrier) (raw : String) :
    ((∃ submission, read limits carrier raw = .ok submission) ↔
      (∀ piece ∈ pieces raw, Readable piece) ∧
        ∃ request, FirstUnder (pieces raw) "SAMLRequest" request ∧ request ≠ "" ∧
          request.utf8ByteSize ≤ limits.encoded.toNat) ∧
    (∀ submission, read limits carrier raw = .ok submission → submission.CountsIn carrier (pieces raw)) ∧
    (∀ longer, Relation.ReflTransGen (AddsPiece carrier) (pieces raw) (pieces longer) →
      read limits carrier longer = read limits carrier raw) ∧
    ∀ piece ∈ pieces raw, ¬ Readable piece →
      ∃ fault, read limits carrier raw = .error fault ∧ fault.kind = .malformedInput := by
  simp only [read_eq_ofPieces]
  refine ⟨?_, ?_, ?_, ?_⟩
  · constructor
    · intro given
      rcases given with ⟨submission, succeeds⟩
      rcases ofPieces_eq_ok_iff.mp succeeds with ⟨readable, counts, present, short⟩
      rcases counts.request with first | ⟨_, empty⟩
      · exact ⟨readable, submission.request, first, present, short⟩
      · exact absurd empty present
    · intro given
      rcases given with ⟨readable, request, first, present, short⟩
      rcases exists_readAll_iff.mpr readable with ⟨parameters, isRead⟩
      have same : (ofParameters carrier parameters).request = request :=
        isRead.firstValue_eq_iff.mpr (.inl first)
      have counts := isRead.ofParameters_eq_iff.mp (rfl : ofParameters carrier parameters = _)
      rw [← same] at present short
      exact ⟨_, ofPieces_eq_ok_iff.mpr ⟨readable, counts, present, short⟩⟩
  · intro submission succeeds
    exact (ofPieces_eq_ok_iff.mp succeeds).2.1
  · intro longer additions
    exact ofPieces_of_additions additions
  · intro piece member unreadable
    cases outcome : ofPieces limits carrier (pieces raw) with
    | error fault =>
        exact ⟨fault, rfl, kind_of_ofPieces outcome⟩
    | ok submission =>
        exact absurd ((ofPieces_eq_ok_iff.mp outcome).1 piece member) unreadable

/-! ### A text with more than is needed -/

private theorem readsAs_of_pieceSpells {piece : List Char} {parameter : List Char × List Char}
    (spells : PieceSpells piece parameter) :
    ReadsAs piece (String.ofList parameter.1) (String.ofList parameter.2) := by
  rw [← @readParameter_eq_ok_iff piece (_, _)]
  exact readParameter_ofList spells

private theorem pieces_ofList {raw : List Char} {parts : List (List Char)}
    (divides : (raw.splitOn '&').filter (fun piece => !piece.isEmpty) = parts) :
    pieces (String.ofList raw) = parts := by
  unfold pieces
  rw [String.toList_ofList]
  exact divides

private theorem readsAs_toList {piece name value : String}
    (spells : PieceSpells piece.toList (name.toList, value.toList)) : ReadsAs piece.toList name value := by
  have reads := readsAs_of_pieceSpells spells
  rw [String.ofList_toList, String.ofList_toList] at reads
  exact reads

private theorem not_readable_of_cut : ¬ Readable "b=%4".toList := by
  intro given
  rcases given with ⟨name, value, nameText, valueText, divides, _, valueStands⟩
  have cut : divided "b=%4".toList = ("b".toList, "%4".toList) := by decide +kernel
  rw [divides.eq_divided] at cut
  cases cut
  rcases valueStands.1 [] '%' ['4'] (by decide) rfl with ⟨high, low, further, same, _⟩
  simp at same

/-- A form with parameters that do not count is read as the form without them, and an escape that is cut off
spoils it. -/
theorem Submission.read_by_grammar_spoiled :
    (∃ submission, read {} .form (String.ofList "SAMLRequest=a+%62".toList) = .ok submission ∧
      submission.CountsIn .form ["SAMLRequest=a+%62".toList]) ∧
    read {} .form (String.ofList "SigAlg=s&SAMLRequest=a+%62&SAMLRequest=".toList) =
      read {} .form (String.ofList "SAMLRequest=a+%62".toList) ∧
    ∃ fault, read {} .form (String.ofList "SAMLRequest=a+%62&b=%4".toList) = .error fault ∧
      fault.kind = .malformedInput := by
  have plain := @pieces_ofList "SAMLRequest=a+%62".toList ["SAMLRequest=a+%62".toList] (by decide +kernel)
  have longer := @pieces_ofList "SigAlg=s&SAMLRequest=a+%62&SAMLRequest=".toList
    ["SigAlg=s".toList, "SAMLRequest=a+%62".toList, "SAMLRequest=".toList] (by decide +kernel)
  have cut := @pieces_ofList "SAMLRequest=a+%62&b=%4".toList
    ["SAMLRequest=a+%62".toList, "b=%4".toList] (by decide +kernel)
  have request : ReadsAs "SAMLRequest=a+%62".toList "SAMLRequest" "a b" := readsAs_toList (by decide +kernel)
  have unknown : ReadsAs "SigAlg=s".toList "SigAlg" "s" := readsAs_toList (by decide +kernel)
  have empty : ReadsAs "SAMLRequest=".toList "SAMLRequest" "" := readsAs_toList (by decide +kernel)
  rcases read_by_grammar {} .form (String.ofList "SAMLRequest=a+%62".toList) with
    ⟨succeeds, counts, additions, _⟩
  rw [plain] at succeeds counts additions
  refine ⟨?_, additions _ ?_, ?_⟩
  · have readable : ∀ piece ∈ ["SAMLRequest=a+%62".toList], Readable piece := by
      rw [List.forall_mem_singleton]
      exact ⟨_, _, request⟩
    have first : FirstUnder ["SAMLRequest=a+%62".toList] "SAMLRequest" "a b" :=
      ⟨[], _, [], rfl, request, nofun⟩
    rcases succeeds.mpr ⟨readable, _, first, by decide, by decide⟩ with ⟨submission, isRead⟩
    exact ⟨submission, isRead, counts submission isRead⟩
  · rw [longer]
    have inFront : AddsPiece .form ["SAMLRequest=a+%62".toList]
        ["SigAlg=s".toList, "SAMLRequest=a+%62".toList] :=
      ⟨[], _, _, _, _, rfl, rfl, unknown, fun known => absurd known (by decide)⟩
    have behind : AddsPiece .form ["SigAlg=s".toList, "SAMLRequest=a+%62".toList]
        ["SigAlg=s".toList, "SAMLRequest=a+%62".toList, "SAMLRequest=".toList] :=
      ⟨["SigAlg=s".toList, "SAMLRequest=a+%62".toList], _, [], _, _, rfl, rfl, empty,
        fun _ => ⟨_, by simp, _, request⟩⟩
    exact .tail (.single inFront) behind
  · rcases read_by_grammar {} .form (String.ofList "SAMLRequest=a+%62&b=%4".toList) with ⟨_, _, _, spoils⟩
    rw [cut] at spoils
    exact spoils _ (by simp) not_readable_of_cut

end SamlGate
