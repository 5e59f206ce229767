import SamlGate.Proofs.Codec.Inflation
import SamlGate.Proofs.Login.Acceptance

/-!
What a request parameter spells.

A document is taken from a parameter exactly when both keep within the limits on them and the parameter is
base64 of the document, compressed in a query. Of a compressed document one octet more than the limit is
asked for. Where the limit is the largest word that octet cannot be counted, and inflating stops before it
begins.
-/

namespace SamlGate

open Xml Outcome

theorem Limits.checkEncoded_eq_ok_iff {limits : Limits} {request : String} :
    limits.checkEncoded request = .ok () ↔ request.utf8ByteSize ≤ limits.encoded.toNat := by
  unfold Limits.checkEncoded
  split
  · rename_i tooLong
    constructor
    · intro passes
      cases passes
    · intro short
      omega
  · rename_i short
    exact iff_of_true rfl (Nat.le_of_not_lt short)

theorem parameterOctets_eq_ok_iff {limits : Limits} {parameter : String} {octets : Octets} :
    parameterOctets limits parameter = .ok octets ↔
      parameter.utf8ByteSize ≤ limits.encoded.toNat ∧ Base64.decodeWrapped? parameter = some octets := by
  unfold parameterOctets
  rw [bind_eq_ok_iff]
  constructor
  · rintro ⟨_, short, decoded⟩
    split at decoded
    · rename_i spelled
      cases decoded
      exact ⟨Limits.checkEncoded_eq_ok_iff.mp short, spelled⟩
    · cases decoded
  · rintro ⟨short, spelled⟩
    exact ⟨(), Limits.checkEncoded_eq_ok_iff.mpr short, by rw [spelled]⟩

theorem documentText_eq_ok_iff {octets : Octets} {text : String} :
    documentText octets = .ok text ↔ octets = Octets.ofText text := by
  unfold documentText
  rw [← Utf8.read_eq_ok_iff]
  cases Utf8.read octets with
  | error fault =>
      simp
  | ok found =>
      simp

/-! ### Compressed documents -/

/-- The octet beyond the longest document can be counted. -/
def Limits.Countable (limits : Limits) : Prop :=
  limits.inflated.toNat + 1 < UInt64.size

instance : DecidablePred Limits.Countable :=
  fun limits => inferInstanceAs (Decidable (limits.inflated.toNat + 1 < UInt64.size))

theorem Limits.asked_of_countable {limits : Limits} (countable : limits.Countable) :
    limits.asked = .ok (limits.inflated.toNat + 1) :=
  if_pos countable

theorem Limits.asked_of_not_countable {limits : Limits} (uncountable : ¬ limits.Countable) :
    limits.asked = .error .overflow :=
  if_neg uncountable

theorem Limits.admitted_eq_ok_iff {limits : Limits} {octets admitted : Octets} :
    limits.admitted octets = .ok admitted ↔ octets.length ≤ limits.inflated.toNat ∧ admitted = octets := by
  unfold Limits.admitted
  split
  · rename_i long
    constructor
    · intro passes
      cases passes
    · intro short
      omega
  · rename_i short
    constructor
    · intro same
      cases same
      exact ⟨Nat.le_of_not_lt short, rfl⟩
    · rintro ⟨_, rfl⟩
      rfl

theorem Limits.inflate_eq_ok_iff {limits : Limits} (countable : limits.Countable) {stream octets : Octets} :
    limits.inflate stream = .ok octets ↔
      Deflate.Inflates stream octets ∧ octets.length ≤ limits.inflated.toNat := by
  unfold Limits.inflate
  rw [bind_eq_ok_iff]
  simp only [limits.asked_of_countable countable, Except.ok.injEq, exists_eq_left']
  constructor
  · intro inflated
    split at inflated
    · rename_i output drained
      obtain ⟨short, same⟩ := Limits.admitted_eq_ok_iff.mp (lift_eq_ok_iff.mp inflated)
      have ended : output.size ≤ limits.inflated.toNat := by
        simp only [List.length_take, Array.length_toList] at short
        omega
      rw [List.take_of_length_le (by simp only [Array.length_toList]; omega)] at same
      subst same
      rw [Array.length_toList]
      exact ⟨⟨_, by simpa using Nat.lt_succ_of_le ended, drained⟩, ended⟩
    · cases inflated
  · rintro ⟨inflates, short⟩
    rw [inflates.inflate_eq (Nat.lt_succ_of_le short)]
    dsimp only
    rw [List.take_of_length_le (by omega)]
    exact lift_eq_ok_iff.mpr (Limits.admitted_eq_ok_iff.mpr ⟨short, rfl⟩)

private theorem Limits.inflate_of_not_countable {limits : Limits} (uncountable : ¬ limits.Countable)
    (stream : Octets) : limits.inflate stream = .error .overflow := by
  unfold Limits.inflate
  rw [limits.asked_of_not_countable uncountable]
  rfl

/-! ### Parameters -/

theorem queryDocument_eq_ok_iff {limits : Limits} (countable : limits.Countable)
    {parameter encoding text : String} :
    queryDocument limits parameter encoding = .ok text ↔
      (encoding = "" ∨ encoding = compressedUri) ∧ parameter.utf8ByteSize ≤ limits.encoded.toNat ∧
        (Octets.ofText text).length ≤ limits.inflated.toNat ∧
        ∃ stream, Base64.decodeWrapped? parameter = some stream ∧
          Deflate.Inflates stream (Octets.ofText text) := by
  unfold queryDocument
  by_cases stated : encoding = "" ∨ encoding = compressedUri
  · rw [if_neg (by tauto)]
    simp only [bind_eq_ok_iff, lift_eq_ok_iff, parameterOctets_eq_ok_iff,
      Limits.inflate_eq_ok_iff countable, documentText_eq_ok_iff]
    constructor
    · rintro ⟨stream, ⟨small, decoded⟩, octets, ⟨inflates, short⟩, spelled⟩
      subst spelled
      exact ⟨stated, small, short, stream, decoded, inflates⟩
    · rintro ⟨_, small, short, stream, decoded, inflates⟩
      exact ⟨stream, ⟨small, decoded⟩, _, ⟨inflates, short⟩, rfl⟩
  · rw [if_pos (by tauto)]
    constructor
    · intro decodes
      cases decodes
    · intro parts
      exact absurd parts.1 stated

theorem queryDocument_of_spelled {limits : Limits} {parameter encoding : String} {stream : Octets}
    (stated : encoding = "" ∨ encoding = compressedUri)
    (small : parameter.utf8ByteSize ≤ limits.encoded.toNat)
    (spelled : Base64.decodeWrapped? parameter = some stream) :
    queryDocument limits parameter encoding =
      limits.inflate stream >>= fun octets => liftM (documentText octets) := by
  unfold queryDocument
  rw [if_neg (by tauto), parameterOctets_eq_ok_iff.mpr ⟨small, spelled⟩]
  rfl

theorem queryDocument_ne_ok_of_not_countable {limits : Limits} (uncountable : ¬ limits.Countable)
    {parameter encoding text : String} : queryDocument limits parameter encoding ≠ .ok text := by
  intro decodes
  unfold queryDocument at decodes
  split at decodes
  · cases decodes
  · obtain ⟨stream, _, decodes⟩ := bind_eq_ok_iff.mp decodes
    rw [limits.inflate_of_not_countable uncountable] at decodes
    cases decodes

theorem queryDocument_of_not_countable {limits : Limits} (uncountable : ¬ limits.Countable)
    {parameter encoding : String} {stream : Octets} (stated : encoding = "" ∨ encoding = compressedUri)
    (small : parameter.utf8ByteSize ≤ limits.encoded.toNat)
    (spelled : Base64.decodeWrapped? parameter = some stream) :
    queryDocument limits parameter encoding = .error .overflow := by
  rw [queryDocument_of_spelled stated small spelled, limits.inflate_of_not_countable uncountable]
  rfl

theorem formDocument_eq_ok_iff {limits : Limits} {parameter text : String} :
    formDocument limits parameter = .ok text ↔
      parameter.utf8ByteSize ≤ limits.encoded.toNat ∧
        (Octets.ofText text).length ≤ limits.inflated.toNat ∧
        Base64.decodeWrapped? parameter = some (Octets.ofText text) := by
  unfold formDocument
  simp only [bind_eq_ok_iff, parameterOctets_eq_ok_iff]
  constructor
  · rintro ⟨octets, ⟨small, decoded⟩, rest⟩
    split at rest
    · cases rest
    · rename_i short
      have spelled := documentText_eq_ok_iff.mp rest
      subst spelled
      exact ⟨small, Nat.le_of_not_lt short, decoded⟩
  · rintro ⟨small, short, decoded⟩
    refine ⟨_, ⟨small, decoded⟩, ?_⟩
    rw [if_neg (by omega)]
    exact documentText_eq_ok_iff.mpr rfl

end SamlGate
