import SamlGate.Proofs.Codec.Reading

/-!
The one spelling of a value that writing gives.

A value has many spellings, and reading takes them all. Which of them is the written one shows in the
spelling itself: a component that reads as a value is what the value is written as exactly when it is made
of unreserved characters, plus signs and upper-case escapes of what is neither unreserved nor a space.
-/

namespace SamlGate.Percent

/-! ### Unreserved characters -/

def isUnreservedCharacter (character : Char) : Bool :=
  ('A' ≤ character && character ≤ 'Z') || ('a' ≤ character && character ≤ 'z')
    || ('0' ≤ character && character ≤ '9')
    || character = '-' || character = '_' || character = '.' || character = '~'

private theorem isUnreserved_eq (octet : UInt8) :
    isUnreserved octet = isUnreservedCharacter (Char.ofNat octet.toNat) := by
  have checked : ∀ number : Fin 256,
      isUnreserved (UInt8.ofNat number.val) = isUnreservedCharacter (Char.ofNat number.val) := by
    decide +kernel
  have result := checked ⟨octet.toNat, octet.toNat_lt⟩
  rw [UInt8.ofNat_toNat] at result
  exact result

private theorem ne_escapeMark_of_unreserved {character : Char}
    (unreserved : isUnreservedCharacter character = true) :
    character ≠ '%' := by
  intro same
  rw [same] at unreserved
  cases unreserved

private theorem toNat_lt_of_unreserved {character : Char}
    (unreserved : isUnreservedCharacter character = true) :
    character.toNat < 128 := by
  have below (last : Char) (small : last.toNat < 128) (atMost : character ≤ last) : character.toNat < 128 :=
    Nat.lt_of_le_of_lt atMost small
  simp only [isUnreservedCharacter, Bool.or_eq_true, Bool.and_eq_true, decide_eq_true_eq] at unreserved
  rcases unreserved with (((((upper | lower) | digit) | rfl) | rfl) | rfl) | rfl
  · exact below 'Z' (by decide) upper.2
  · exact below 'z' (by decide) lower.2
  · exact below '9' (by decide) digit.2
  all_goals decide

private theorem encodedOctet_of_unreserved {character : Char}
    (unreserved : isUnreservedCharacter character = true) :
    encodedOctet (UInt8.ofNat character.toNat) = [character] := by
  have small := toNat_lt_of_unreserved unreserved
  unfold encodedOctet
  rw [isUnreserved_eq, UInt8.toNat_ofNat', Nat.mod_eq_of_lt (by omega), Char.ofNat_toNat, if_pos unreserved]

/-! ### Hexadecimal digits -/

private theorem hexDigit_ne_escapeMark {value : Nat} (small : value < 16) : hexDigit value ≠ '%' :=
  (ascii_of_hexValue? (Option.isSome_of_eq_some (hexValue?_hexDigit small))).2.1

private theorem hexValue?_lt {digit : Char} {value : Nat} (isDigit : hexValue? digit = some value) :
    value < 16 := by
  unfold hexValue? at isDigit
  dsimp only at isDigit
  split_ifs at isDigit
  all_goals
    cases isDigit
    omega

private theorem hexValue?_of_escaped? {high low : Char} {octet : UInt8}
    (escaped : escaped? high low = some octet) :
    hexValue? high = some (octet.toNat / 16) ∧ hexValue? low = some (octet.toNat % 16) := by
  unfold escaped? at escaped
  rcases Option.bind_eq_some_iff.mp escaped with ⟨upper, isUpper, escaped⟩
  rcases Option.bind_eq_some_iff.mp escaped with ⟨lower, isLower, escaped⟩
  have upperSmall := hexValue?_lt isUpper
  have lowerSmall := hexValue?_lt isLower
  cases escaped
  rw [isUpper, isLower, UInt8.toNat_ofNat', Nat.mod_eq_of_lt (by omega)]
  constructor
  · congr 1
    omega
  · congr 1
    omega

def isWrittenDigit (digit : Char) : Bool :=
  ('0' ≤ digit && digit ≤ '9') || ('A' ≤ digit && digit ≤ 'F')

theorem hexDigit_eq_iff {digit : Char} {value : Nat} (isDigit : hexValue? digit = some value) :
    hexDigit value = digit ↔ isWrittenDigit digit = true := by
  have small := (ascii_of_hexValue? (Option.isSome_of_eq_some isDigit)).1
  have checked : ∀ number : Fin 128, ∀ value ∈ hexValue? (Char.ofNat number.val),
      (hexDigit value = Char.ofNat number.val ↔ isWrittenDigit (Char.ofNat number.val) = true) := by
    decide +kernel
  have result := checked ⟨digit.toNat, small⟩
  rw [Char.ofNat_toNat] at result
  exact result value isDigit

private theorem isUnreservedCharacter_of_isWrittenDigit {digit : Char}
    (written : isWrittenDigit digit = true) :
    isUnreservedCharacter digit = true := by
  simp only [isWrittenDigit, Bool.or_eq_true, Bool.and_eq_true, decide_eq_true_eq] at written
  rcases written with number | letter
  · simp [isUnreservedCharacter, number]
  · have among : digit ≤ 'Z' := Char.le_trans letter.2 (by decide)
    simp [isUnreservedCharacter, letter.1, among]

/-! ### Two steps of writing -/

def percentOctet (octet : UInt8) : List Char :=
  if isUnreserved octet then [Char.ofNat octet.toNat]
  else ['%', hexDigit (octet.toNat / 16), hexDigit (octet.toNat % 16)]

/-- The text with a plus sign for each `%20`, from left to right. -/
def withPlus : List Char → List Char
  | [] => []
  | '%' :: '2' :: '0' :: rest => '+' :: withPlus rest
  | character :: rest => character :: withPlus rest

private theorem withPlus_of_ne {character : Char} (other : character ≠ '%') (rest : List Char) :
    withPlus (character :: rest) = character :: withPlus rest := by
  rw [withPlus]
  simp [other]

private theorem withPlus_percentOctet (octet : UInt8) (rest : List Char) :
    withPlus (percentOctet octet ++ rest) = encodedOctet octet ++ withPlus rest := by
  have below := octet.toNat_lt
  unfold percentOctet encodedOctet
  by_cases kept : isUnreserved octet = true
  · rw [if_pos kept, if_pos kept]
    exact withPlus_of_ne (ne_escapeMark_of_unreserved (isUnreserved_eq octet ▸ kept)) rest
  · rw [if_neg kept, if_neg kept]
    by_cases space : octet = 0x20
    · subst space
      rfl
    · -- Only the digits of a space would be taken away.
      have other : ∀ further, hexDigit (octet.toNat / 16) :: hexDigit (octet.toNat % 16) :: rest =
          '2' :: '0' :: further → False := by
        intro further same
        rcases List.cons.inj same with ⟨sameHigh, same⟩
        rcases List.cons.inj same with ⟨sameLow, _⟩
        have escaped := escaped?_hexDigit octet
        rw [sameHigh, sameLow] at escaped
        exact space (Option.some.inj escaped).symm
      rw [if_neg space]
      change withPlus ('%' :: hexDigit (octet.toNat / 16) :: hexDigit (octet.toNat % 16) :: rest) = _
      rw [withPlus, withPlus_of_ne (hexDigit_ne_escapeMark (by omega)),
        withPlus_of_ne (hexDigit_ne_escapeMark (by omega))]
      · rfl
      · intro further _ same
        exact other further same

theorem toList_encode_in_steps (value : String) :
    (encode value).toList = withPlus ((Octets.ofText value).flatMap percentOctet) := by
  unfold encode
  rw [String.toList_ofList]
  induction Octets.ofText value with
  | nil =>
      rfl
  | cons octet octets ih =>
      rw [List.flatMap_cons, List.flatMap_cons, withPlus_percentOctet, ih]

/-! ### What is written as it stands -/

/-- A character that writing may have put where it stands, in front of the rest: an unreserved one, a plus
sign, or a percent sign before two upper-case digits of an octet that is neither unreserved nor a space. -/
def WrittenBefore (character : Char) (rest : List Char) : Prop :=
  isUnreservedCharacter character = true ∨ character = '+' ∨
    character = '%' ∧ ∃ high low further octet, rest = high :: low :: further ∧
      isWrittenDigit high = true ∧ isWrittenDigit low = true ∧ escaped? high low = some octet ∧
      isUnreservedCharacter (Char.ofNat octet.toNat) = false ∧ octet ≠ 0x20

def AsWritten (component : List Char) : Prop :=
  Everywhere WrittenBefore component

theorem encodedOctet_append_eq_iff {high low : Char} {octet : UInt8}
    (escaped : escaped? high low = some octet) {front rest : List Char} :
    encodedOctet octet ++ front = '%' :: high :: low :: rest ↔
      (isWrittenDigit high = true ∧ isWrittenDigit low = true ∧
        isUnreservedCharacter (Char.ofNat octet.toNat) = false ∧ octet ≠ 0x20) ∧ front = rest := by
  rcases hexValue?_of_escaped? escaped with ⟨isHigh, isLow⟩
  rw [← hexDigit_eq_iff isHigh, ← hexDigit_eq_iff isLow, ← isUnreserved_eq]
  by_cases space : octet = 0x20
  · have asPlus : encodedOctet 0x20 = ['+'] := rfl
    simp [space, asPlus]
  · unfold encodedOctet
    by_cases kept : isUnreserved octet = true
    · have noMark := ne_escapeMark_of_unreserved (isUnreserved_eq octet ▸ kept)
      simp [kept, noMark]
    · simp [kept, space, and_assoc]

private theorem exists_cons_of_encodedOctet (octet : UInt8) :
    ∃ first rest, encodedOctet octet = first :: rest ∧
      (isUnreservedCharacter first = true ∨ first = '+' ∨ first = '%') := by
  unfold encodedOctet
  split
  · rename_i kept
    exact ⟨_, _, rfl, .inl (isUnreserved_eq octet ▸ kept)⟩
  · split
    · exact ⟨_, _, rfl, .inr (.inl rfl)⟩
    · exact ⟨_, _, rfl, .inr (.inr rfl)⟩

theorem asWritten_escape_iff {high low : Char} {octet : UInt8} (escaped : escaped? high low = some octet)
    (rest : List Char) :
    AsWritten ('%' :: high :: low :: rest) ↔
      (isWrittenDigit high = true ∧ isWrittenDigit low = true ∧
        isUnreservedCharacter (Char.ofNat octet.toNat) = false ∧ octet ≠ 0x20) ∧ AsWritten rest := by
  unfold AsWritten
  rw [everywhere_cons, everywhere_cons, everywhere_cons]
  constructor
  · intro given
    rcases given with ⟨marked, _, _, later⟩
    rcases marked with unreserved | isPlus | ⟨_, high, low, further, other, same, written⟩
    · cases unreserved
    · cases isPlus
    · cases same
      rcases written with ⟨highWritten, lowWritten, escapedToo, reserved, noSpace⟩
      rw [escaped] at escapedToo
      cases escapedToo
      exact ⟨⟨highWritten, lowWritten, reserved, noSpace⟩, later⟩
  · intro given
    rcases given with ⟨⟨highWritten, lowWritten, reserved, noSpace⟩, later⟩
    have here : WrittenBefore '%' (high :: low :: rest) :=
      .inr (.inr ⟨rfl, high, low, rest, octet, rfl, highWritten, lowWritten, escaped, reserved, noSpace⟩)
    exact ⟨here, .inl (isUnreservedCharacter_of_isWrittenDigit highWritten),
      .inl (isUnreservedCharacter_of_isWrittenDigit lowWritten), later⟩

theorem asWritten_itself_iff {character : Char} (noEscape : character ≠ '%') (noSpace : character ≠ '+')
    (rest : List Char) :
    AsWritten (character :: rest) ↔ isUnreservedCharacter character = true ∧ AsWritten rest := by
  unfold AsWritten
  rw [everywhere_cons, WrittenBefore]
  simp [noEscape, noSpace]

/-- The octets of a component are written as the component exactly when it stands as written. -/
theorem Spells.flatMap_encodedOctet_eq_iff {component : List Char} {octets : Octets}
    (spells : Spells component octets) :
    octets.flatMap encodedOctet = component ↔ AsWritten component := by
  induction spells with
  | nothing =>
      exact iff_of_true rfl everywhere_nil
  | @escape high low octet rest octets escaped _ ih =>
      rw [asWritten_escape_iff escaped, List.flatMap_cons, encodedOctet_append_eq_iff escaped, ih]
  | @space rest octets _ ih =>
      unfold AsWritten at ih ⊢
      rw [everywhere_cons, ← ih, List.flatMap_cons]
      change '+' :: octets.flatMap encodedOctet = '+' :: rest ↔ _
      rw [List.cons_inj_right, WrittenBefore]
      simp
  | @itself character rest octets noEscape noSpace _ ih =>
      rw [asWritten_itself_iff noEscape noSpace, ← ih, List.flatMap_append]
      by_cases unreserved : isUnreservedCharacter character = true
      · have octet := ofText_ascii (toNat_lt_of_unreserved unreserved)
        rw [octet, List.flatMap_singleton, encodedOctet_of_unreserved unreserved]
        simp [unreserved]
      · rcases List.exists_cons_of_ne_nil (ofText_singleton_ne_nil character) with ⟨octet, more, spelled⟩
        rcases exists_cons_of_encodedOctet octet with ⟨first, after, written, plain⟩
        have other : first ≠ character := by
          rintro rfl
          rcases plain with isUnreserved | isPlus | isEscape
          · exact unreserved isUnreserved
          · exact noSpace isPlus
          · exact noEscape isEscape
        rw [spelled, List.flatMap_cons, written]
        simp [unreserved, other]

/-- A component that reads as a value is what the value is written as exactly when it stands as written. -/
theorem encode_eq_iff_of_decode {component value : String} (isRead : decode component = .ok value) :
    encode value = component ↔ AsWritten component.toList := by
  rw [← (decode_eq_ok_iff.mp isRead).flatMap_encodedOctet_eq_iff, ← String.toList_inj, encode,
    String.toList_ofList]

end SamlGate.Percent
