import SamlGate.Proofs.Login.Payload
import SamlGate.Proofs.Login.QuerySignature

/-!
Limits reject, and do nothing else.

A request that is accepted under some limits is accepted under larger ones, and nothing about what is
accepted changes. The largest limit on a document in a query is the exception: there the octet beyond the
document cannot be counted, and the run stops.
-/

namespace SamlGate

open Xml Outcome

structure Limits.Within (limits larger : Limits) : Prop where
  encoded : limits.encoded ≤ larger.encoded
  inflated : limits.inflated ≤ larger.inflated
  nodes : limits.nodes ≤ larger.nodes

variable {limits larger : Limits}

/-! ### Parameters -/

theorem Limits.Within.checkEncoded (within : limits.Within larger) {request : String}
    (passes : limits.checkEncoded request = .ok ()) : larger.checkEncoded request = .ok () := by
  rw [checkEncoded_eq_ok_iff] at passes ⊢
  exact Nat.le_trans passes (UInt64.le_iff_toNat_le.mp within.encoded)

private theorem Submission.read_of_within (within : limits.Within larger) {carrier : Carrier} {raw : String}
    {submission : Submission} (isRead : read limits carrier raw = .ok submission) :
    read larger carrier raw = .ok submission := by
  unfold read at isRead ⊢
  obtain ⟨parameters, readable, rest⟩ := bind_eq_ok_iff.mp isRead
  apply bind_eq_ok_iff.mpr ⟨parameters, readable, ?_⟩
  dsimp only at rest ⊢
  split at rest
  · cases rest
  · rename_i present
    rw [if_neg present]
    obtain ⟨_, passes, same⟩ := bind_eq_ok_iff.mp rest
    exact bind_eq_ok_iff.mpr ⟨(), within.checkEncoded passes, same⟩

/-! ### Documents -/

theorem Limits.Countable.of_within (within : limits.Within larger) (countable : larger.Countable) :
    limits.Countable :=
  Nat.lt_of_le_of_lt (Nat.succ_le_succ (UInt64.le_iff_toNat_le.mp within.inflated)) countable

private theorem AuthnRequest.readDocument_of_within (within : limits.Within larger) {text : String}
    {document : Document} (isRead : readDocument limits text = .ok document) :
    readDocument larger text = .ok document := by
  rw [readDocument_eq_ok_iff] at isRead ⊢
  exact ⟨Document.read?_of_le (UInt32.le_iff_toNat_le.mp within.nodes) isRead.1, isRead.2⟩

private theorem queryDocument_of_within (within : limits.Within larger) (countable : larger.Countable)
    {parameter encoding text : String} (decodes : queryDocument limits parameter encoding = .ok text) :
    queryDocument larger parameter encoding = .ok text := by
  have countableToo := countable.of_within within
  rw [queryDocument_eq_ok_iff countableToo] at decodes
  rw [queryDocument_eq_ok_iff countable]
  obtain ⟨stated, small, short, spelled⟩ := decodes
  have small := Nat.le_trans small (UInt64.le_iff_toNat_le.mp within.encoded)
  have short := Nat.le_trans short (UInt64.le_iff_toNat_le.mp within.inflated)
  exact ⟨stated, small, short, spelled⟩

private theorem queryDocument_of_within_not_countable (within : limits.Within larger)
    (uncountable : ¬ larger.Countable) {parameter encoding text : String}
    (decodes : queryDocument limits parameter encoding = .ok text) :
    queryDocument larger parameter encoding = .error .overflow := by
  have countable : limits.Countable := by
    apply Decidable.byContradiction
    intro uncountable
    exact queryDocument_ne_ok_of_not_countable uncountable decodes
  obtain ⟨stated, small, _, stream, spelled, _⟩ := (queryDocument_eq_ok_iff countable).mp decodes
  have small := Nat.le_trans small (UInt64.le_iff_toNat_le.mp within.encoded)
  exact queryDocument_of_not_countable uncountable stated small spelled

private theorem formDocument_of_within (within : limits.Within larger) {parameter text : String}
    (decodes : formDocument limits parameter = .ok text) : formDocument larger parameter = .ok text := by
  rw [formDocument_eq_ok_iff] at decodes ⊢
  obtain ⟨small, short, spelled⟩ := decodes
  have small := Nat.le_trans small (UInt64.le_iff_toNat_le.mp within.encoded)
  have short := Nat.le_trans short (UInt64.le_iff_toNat_le.mp within.inflated)
  exact ⟨small, short, spelled⟩

/-! ### Signatures -/

private theorem verifyQuery_of_within (within : limits.Within larger) {service : ServiceProvider}
    {request relayState signature algorithm : String}
    (verifies : verifyQuery limits service request relayState signature algorithm = .ok ()) :
    verifyQuery larger service request relayState signature algorithm = .ok () := by
  unfold verifyQuery at verifies ⊢
  split at verifies
  · cases verifies
  · rename_i present
    rw [if_neg present]
    obtain ⟨_, passes, rest⟩ := bind_eq_ok_iff.mp verifies
    exact bind_eq_ok_iff.mpr ⟨(), within.checkEncoded passes, rest⟩

private theorem verifyForm_of_within (within : limits.Within larger) {service : ServiceProvider}
    {parameter : String} (verifies : verifyForm limits service parameter = .ok ()) :
    verifyForm larger service parameter = .ok () := by
  unfold verifyForm at verifies ⊢
  obtain ⟨text, decodes, rest⟩ := bind_eq_ok_iff.mp verifies
  obtain ⟨document, isRead, verified⟩ := bind_eq_ok_iff.mp rest
  apply bind_eq_ok_iff.mpr ⟨text, formDocument_of_within within decodes, ?_⟩
  exact bind_eq_ok_iff.mpr ⟨document, AuthnRequest.readDocument_of_within within isRead, verified⟩

/-! ### The gate -/

theorem Passes.of_within (within : limits.Within larger) {service : ServiceProvider}
    {identity : IdentityProvider} {submission : Submission} {document : Document} {request : AuthnRequest}
    {verified : Bool} (countable : submission.carrier = .query → larger.Countable)
    (passes : Passes limits service identity submission document request verified) :
    Passes larger service identity submission document request verified where
  spells := by
    obtain ⟨text, decodes, isRead⟩ := passes.spells.decodes
    refine ⟨⟨text, ?_, AuthnRequest.readDocument_of_within within isRead⟩, passes.spells.readable⟩
    unfold Submission.documentText at decodes ⊢
    cases carried : submission.carrier with
    | query =>
        rw [carried] at decodes
        exact queryDocument_of_within within (countable carried) decodes
    | form =>
        rw [carried] at decodes
        exact lift_eq_ok_iff.mpr (formDocument_of_within within (lift_eq_ok_iff.mp decodes))
  hasRequest := passes.hasRequest
  verified_iff := passes.verified_iff
  verifies := by
    intro demanded
    have verifies := passes.verifies demanded
    unfold Submission.verification at verifies ⊢
    cases carried : submission.carrier with
    | query =>
        rw [carried] at verifies
        exact verifyQuery_of_within within verifies
    | form =>
        rw [carried] at verifies
        exact verifyForm_of_within within verifies

/-- What a query was accepted with is what takes it to the count, where it stops. -/
private theorem accept_query_of_not_countable (within : limits.Within larger)
    (uncountable : ¬ larger.Countable)
    {raw : String} {service : ServiceProvider} {identity : IdentityProvider} {accepted : AcceptedRequest}
    (isAccepted : accept limits .query raw service identity = .ok accepted) :
    accept larger .query raw service identity = .error .overflow := by
  obtain ⟨isRead, chosen, document, passes⟩ := accept_eq_ok_iff.mp isAccepted
  have inQuery := Submission.carrier_of_read isRead
  have decided := (acceptQuery_eq_ok_iff_passes inQuery).mpr ⟨document, passes⟩
  obtain ⟨demanded, verifies, text, _, decodes, _⟩ := acceptQuery_eq_ok_iff.mp decided
  apply accept_query_eq_error (Submission.read_of_within within isRead) chosen
  · intro isDemanded
    exact verifyQuery_of_within within (verifies (demanded.trans isDemanded))
  · exact queryDocument_of_within_not_countable within uncountable decodes

/-- What is accepted under some limits is accepted under larger ones, and as the same, unless it comes in a
query and the limit on its document is the largest word: then the run stops. -/
theorem accept_of_within (within : limits.Within larger) {carrier : Carrier} {raw : String}
    {service : ServiceProvider} {identity : IdentityProvider} {accepted : AcceptedRequest}
    (isAccepted : accept limits carrier raw service identity = .ok accepted) :
    accept larger carrier raw service identity =
      if carrier = .query → larger.Countable then .ok accepted else .error .overflow := by
  split
  · rename_i countable
    obtain ⟨isRead, chosen, document, passes⟩ := accept_eq_ok_iff.mp isAccepted
    rw [← Submission.carrier_of_read isRead] at countable
    exact accept_eq_ok_iff.mpr
      ⟨Submission.read_of_within within isRead, chosen, document, passes.of_within within countable⟩
  · rename_i exceptional
    obtain ⟨inQuery, uncountable⟩ := Classical.not_imp.mp exceptional
    subst inQuery
    exact accept_query_of_not_countable within uncountable isAccepted

/-- The sender's query, under the largest limits that admit a query at all. -/
theorem accept_of_within_sent :
    ∃ accepted, accept {} .query (String.ofList sentQuery) sender {} = .ok accepted ∧
      accept { encoded := 18446744073709551615, inflated := 18446744073709551614, nodes := 4294967295 }
        .query (String.ofList sentQuery) sender {} = .ok accepted := by
  obtain ⟨accepted, isAccepted, _⟩ := exists_accept_sent read_sentQuery (.inl rfl)
  have within : Limits.Within {}
      { encoded := 18446744073709551615, inflated := 18446744073709551614, nodes := 4294967295 } :=
    ⟨by decide, by decide, by decide⟩
  refine ⟨accepted, isAccepted, ?_⟩
  rw [accept_of_within within isAccepted, if_pos (by decide)]

/-- With the limit on its document raised to the largest word the sender's query stops the run. -/
theorem not_accept_of_within_sent :
    ∃ accepted, Limits.Within {} { inflated := 18446744073709551615 } ∧
      accept {} .query (String.ofList sentQuery) sender {} = .ok accepted ∧
      accept { inflated := 18446744073709551615 } .query (String.ofList sentQuery) sender {} =
        .error .overflow := by
  obtain ⟨accepted, isAccepted, _⟩ := exists_accept_sent read_sentQuery (.inl rfl)
  have within : Limits.Within {} { inflated := 18446744073709551615 } :=
    ⟨by decide, by decide, by decide⟩
  exact ⟨accepted, within, isAccepted, accept_query_of_not_countable within (by decide) isAccepted⟩

end SamlGate
