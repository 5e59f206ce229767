import SamlGate.Proofs.Login.Payload

/-!
The limit on a compressed document.

A stream that inflates to some octets is taken for these octets, all of them, if there are no more than the
limit admits and they are UTF-8. Everything else is malformed. Asking for one octet more than the limit is
what keeps a longer document from being cut off, so the limit is exact as long as that octet can be counted,
and nothing comes out at all where it cannot.
-/

namespace SamlGate

open Outcome

/-- The outcome is the text of the octets where the limit admits them and they are UTF-8, and a report of
malformed input where either fails. In no case is it the text of other octets. -/
structure KeepsLimit (limit : Nat) (octets : Octets) (outcome : Except Failure String) : Prop where
  whole : ∀ text, octets = Octets.ofText text → octets.length ≤ limit → outcome = .ok text
  tooLong : limit < octets.length → ∃ fault, outcome = .error (.rejected (.malformed fault))
  unreadable : (∀ text, octets ≠ Octets.ofText text) →
    ∃ fault, outcome = .error (.rejected (.malformed fault))
  uncut : ∀ text, outcome = .ok text → Octets.ofText text = octets

private theorem documentText_cases (octets : Octets) :
    (∃ text, octets = Octets.ofText text ∧ documentText octets = .ok text) ∨
      (∀ text, octets ≠ Octets.ofText text) ∧ ∃ fault, documentText octets = .error (.malformed fault) := by
  cases outcome : documentText octets with
  | ok text => exact .inl ⟨text, documentText_eq_ok_iff.mp outcome, rfl⟩
  | error error =>
      refine .inr ⟨fun text same => ?_, ?_⟩
      · rw [documentText_eq_ok_iff.mpr same] at outcome
        cases outcome
      · unfold documentText at outcome
        split at outcome
        · cases outcome
        · cases outcome
          exact ⟨_, rfl⟩

private theorem Limits.inflate_of_inflates {limits : Limits} (countable : limits.Countable)
    {stream octets : Octets}
    (inflates : Deflate.Inflates stream octets) :
    limits.inflate stream =
      if octets.length ≤ limits.inflated.toNat then .ok octets
      else .error (.rejected (.malformed (.inflatedTooLong limits.inflated.toNat))) := by
  split
  · rename_i short
    exact (limits.inflate_eq_ok_iff countable).mpr ⟨inflates, short⟩
  · rename_i long
    obtain ⟨front, inflated, reached⟩ := inflates.exists_inflate (limits.inflated.toNat + 1)
    have enough : limits.inflated.toNat + 1 ≤ front.size := by
      rcases reached with whole | ⟨reached, _⟩
      · rw [whole, List.size_toArray]
        omega
      · exact reached
    have refused : limits.admitted (front.toList.take (limits.inflated.toNat + 1)) =
        .error (.malformed (.inflatedTooLong limits.inflated.toNat)) := by
      apply if_pos
      rw [List.length_take, Array.length_toList]
      omega
    unfold Limits.inflate
    simp only [limits.asked_of_countable countable, bind, Except.bind, inflated]
    exact lift_eq_error_iff.mpr ⟨_, refused, rfl⟩

private theorem keepsLimit_inflate {limits : Limits} (countable : limits.Countable) {stream octets : Octets}
    (inflates : Deflate.Inflates stream octets) :
    KeepsLimit limits.inflated.toNat octets
      (limits.inflate stream >>= fun octets => liftM (documentText octets)) := by
  rw [limits.inflate_of_inflates countable inflates]
  by_cases short : octets.length ≤ limits.inflated.toNat
  · rw [if_pos short]
    change KeepsLimit _ _ (liftM (documentText octets))
    rcases documentText_cases octets with ⟨text, same, outcome⟩ | ⟨unreadable, fault, outcome⟩
    · rw [outcome]
      refine ⟨fun other sameToo _ => ?_, fun long => ?_, fun unreadable => ?_, fun other sameToo => ?_⟩
      · rw [Octets.ofText_inj.mp (same.symm.trans sameToo)]
        rfl
      · omega
      · exact absurd same (unreadable text)
      · rw [same, Except.ok.inj (lift_eq_ok_iff.mp sameToo)]
    · rw [outcome]
      exact ⟨fun text same => absurd same (unreadable text), fun _ => ⟨fault, rfl⟩, fun _ => ⟨fault, rfl⟩,
        nofun⟩
  · rw [if_neg short]
    exact ⟨fun _ _ within => absurd within short, fun _ => ⟨_, rfl⟩, fun _ => ⟨_, rfl⟩, nofun⟩

private theorem not_keepsLimit_overflow (limit : Nat) (octets : Octets) :
    ¬ KeepsLimit limit octets (.error .overflow) := by
  intro keeps
  by_cases readable : ∃ text, octets = Octets.ofText text
  · obtain ⟨text, same⟩ := readable
    by_cases short : octets.length ≤ limit
    · cases keeps.whole text same short
    · obtain ⟨fault, reported⟩ := keeps.tooLong (Nat.lt_of_not_le short)
      cases reported
  · obtain ⟨fault, reported⟩ := keeps.unreadable (not_exists.mp readable)
    cases reported

/-- The limit on a compressed document is kept exactly where the octet beyond it can be counted. Where it
cannot, counting stops the run. -/
theorem queryDocument_keepsLimit_iff {limits : Limits} {parameter encoding : String}
    {stream octets : Octets} (stated : encoding = "" ∨ encoding = compressedUri)
    (small : parameter.utf8ByteSize ≤ limits.encoded.toNat)
    (spelled : Base64.decodeWrapped? parameter = some stream)
    (inflates : Deflate.Inflates stream octets) :
    (KeepsLimit limits.inflated.toNat octets (queryDocument limits parameter encoding) ↔
        limits.Countable) ∧
      (limits.asked = .error .overflow ↔ ¬ limits.Countable) ∧
      (queryDocument limits parameter encoding = .error .overflow ↔ ¬ limits.Countable) := by
  by_cases countable : limits.Countable
  · have keeps : KeepsLimit limits.inflated.toNat octets (queryDocument limits parameter encoding) := by
      rw [queryDocument_of_spelled stated small spelled]
      exact keepsLimit_inflate countable inflates
    refine ⟨iff_of_true keeps countable, iff_of_false ?_ (not_not_intro countable),
      iff_of_false ?_ (not_not_intro countable)⟩
    · rw [limits.asked_of_countable countable]
      exact nofun
    · intro stops
      rw [stops] at keeps
      exact not_keepsLimit_overflow _ _ keeps
  · have stops := queryDocument_of_not_countable countable stated small spelled
    rw [stops]
    exact ⟨iff_of_false (not_keepsLimit_overflow _ _) countable,
      iff_of_true (limits.asked_of_not_countable countable) countable, iff_of_true rfl countable⟩

/-! ### A document at the limit -/

/-- The octets of `hi` in a stored block. -/
def greetingStream : Octets :=
  [0x01, 0x02, 0x00, 0xFD, 0xFF, 0x68, 0x69]

private theorem octets_greeting : Octets.ofText "hi" = [0x68, 0x69] := by
  decide

private theorem spelled_greeting : Base64.decodeWrapped? "AQIA/f9oaQ==" = some greetingStream := by
  decide +kernel

private theorem small_greeting : "AQIA/f9oaQ==".utf8ByteSize ≤ 524288 := by
  decide

private theorem inflates_greetingStream : Deflate.Inflates greetingStream (Octets.ofText "hi") := by
  have drained : Deflate.inflate 3 greetingStream = some #[0x68, 0x69] := by decide +kernel
  rw [octets_greeting]
  exact ⟨3, by decide, drained⟩

/-- The two octets are taken whole at a limit of two and refused at a limit of one. -/
theorem queryDocument_keepsLimit_iff_greeting :
    queryDocument { inflated := 2 } "AQIA/f9oaQ==" "" = .ok "hi" ∧
      ∃ fault, queryDocument { inflated := 1 } "AQIA/f9oaQ==" compressedUri =
        .error (.rejected (.malformed fault)) := by
  have counted : (Octets.ofText "hi").length = 2 := by
    rw [octets_greeting]
    rfl
  have keeps : KeepsLimit 2 _ _ :=
    (@queryDocument_keepsLimit_iff { inflated := 2 } _ "" _ _ (.inl rfl) small_greeting spelled_greeting
      inflates_greetingStream).1.mpr (by decide)
  have keepsToo : KeepsLimit 1 _ _ :=
    (@queryDocument_keepsLimit_iff { inflated := 1 } _ compressedUri _ _ (.inr rfl) small_greeting
      spelled_greeting inflates_greetingStream).1.mpr (by decide)
  exact ⟨keeps.whole "hi" rfl (Nat.le_of_eq counted), keepsToo.tooLong (by rw [counted]; decide)⟩

/-- Under the largest limit the run stops, where they should be taken whole. -/
theorem not_keepsLimit_greeting :
    Base64.decodeWrapped? "AQIA/f9oaQ==" = some greetingStream ∧
      Deflate.Inflates greetingStream (Octets.ofText "hi") ∧
      queryDocument { inflated := 18446744073709551615 } "AQIA/f9oaQ==" "" = .error .overflow ∧
      ¬ KeepsLimit 18446744073709551615 (Octets.ofText "hi")
        (queryDocument { inflated := 18446744073709551615 } "AQIA/f9oaQ==" "") := by
  have uncountable : ¬ Limits.Countable { inflated := 18446744073709551615 } := by
    decide
  have stops : queryDocument { inflated := 18446744073709551615 } "AQIA/f9oaQ==" "" = .error .overflow :=
    queryDocument_of_not_countable uncountable (.inl rfl) small_greeting spelled_greeting
  refine ⟨spelled_greeting, inflates_greetingStream, stops, ?_⟩
  rw [stops]
  exact not_keepsLimit_overflow _ _

end SamlGate
