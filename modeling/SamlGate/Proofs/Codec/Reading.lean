import Mathlib.Data.List.Basic
import SamlGate.Codec.Percent

/-!
What a component of form encoding spells.

`Spells` is the grammar of components: escapes, plus signs, and characters that stand for their own UTF-8
octets. `decode` reads exactly that, in one pass. The same is had in three steps: all escapes are checked,
plus signs become spaces, and then the escapes among the octets are resolved, where anything else would be
passed on as it is. The steps do not get in each other's way.
-/

namespace SamlGate.Percent

/-! ### Octets of characters -/

private theorem ofText_singleton (character : Char) :
    Octets.ofText (String.singleton character) = String.utf8EncodeChar character := by
  unfold Octets.ofText
  change (String.singleton character).toByteArray.data.toList = _
  rw [String.toByteArray_singleton, List.utf8Encode_singleton]
  simp

theorem ofText_cons (character : Char) (rest : List Char) :
    Octets.ofText (String.ofList (character :: rest)) =
      Octets.ofText (String.singleton character) ++ Octets.ofText (String.ofList rest) := by
  rw [← Octets.ofText_append]
  congr 1
  rw [← String.toList_inj]
  simp

theorem ofText_ascii {character : Char} (ascii : character.toNat < 128) :
    Octets.ofText (String.singleton character) = [UInt8.ofNat character.toNat] := by
  rw [ofText_singleton]
  unfold String.utf8EncodeChar
  exact if_pos (Nat.le_of_lt_succ ascii)

private theorem high_of_mem_ofText {character : Char} (large : 128 ≤ character.toNat) :
    ∀ octet ∈ Octets.ofText (String.singleton character), 128 ≤ octet.toNat := by
  have notSmall : ¬ character.val.toNat ≤ 127 := by
    change ¬ character.toNat ≤ 127
    omega
  rw [ofText_singleton]
  unfold String.utf8EncodeChar
  simp only [notSmall, if_false]
  split_ifs
  all_goals
    simp only [List.forall_mem_cons, UInt8.toNat_ofNat']
  · exact ⟨by omega, by omega, nofun⟩
  · exact ⟨by omega, by omega, by omega, nofun⟩
  · exact ⟨by omega, by omega, by omega, by omega, nofun⟩

theorem eq_of_mem_ofText {character : Char} {octet : UInt8}
    (member : octet ∈ Octets.ofText (String.singleton character)) (ascii : octet.toNat < 128) :
    Octets.ofText (String.singleton character) = [octet] ∧ character = Char.ofNat octet.toNat := by
  by_cases small : character.toNat < 128
  · rw [ofText_ascii small] at member ⊢
    rw [List.mem_singleton] at member
    subst member
    refine ⟨rfl, ?_⟩
    rw [UInt8.toNat_ofNat', Nat.mod_eq_of_lt (by omega), Char.ofNat_toNat]
  · have high := high_of_mem_ofText (Nat.le_of_not_lt small) octet member
    omega

theorem ofText_singleton_ne_nil (character : Char) :
    Octets.ofText (String.singleton character) ≠ [] := by
  rw [ofText_singleton, ← List.length_pos_iff, String.length_utf8EncodeChar]
  exact character.utf8Size_pos

private theorem escapeMark_not_mem {character : Char} (other : character ≠ '%') :
    (0x25 : UInt8) ∉ Octets.ofText (String.singleton character) := by
  intro member
  exact other (eq_of_mem_ofText member (by decide)).2

/-! ### The grammar of components -/

/-- The component spells these octets. -/
inductive Spells : List Char → Octets → Prop where
  | nothing : Spells [] []
  | escape {high low : Char} {octet : UInt8} {rest : List Char} {octets : Octets}
      (escaped : escaped? high low = some octet) (remaining : Spells rest octets) :
      Spells ('%' :: high :: low :: rest) (octet :: octets)
  | space {rest : List Char} {octets : Octets} (remaining : Spells rest octets) :
      Spells ('+' :: rest) (0x20 :: octets)
  | itself {character : Char} {rest : List Char} {octets : Octets} (noEscape : character ≠ '%')
      (noSpace : character ≠ '+') (remaining : Spells rest octets) :
      Spells (character :: rest) (Octets.ofText (String.singleton character) ++ octets)

private theorem octetsOnto_of_spells {component : List Char} {octets : Octets}
    (spells : Spells component octets)
    (done : Octets) : octetsOnto done component = some (done.reverse ++ octets) := by
  induction spells generalizing done with
  | nothing =>
      simp [octetsOnto]
  | escape escaped _ ih =>
      simp [octetsOnto, escaped, ih]
  | space _ ih =>
      simp [octetsOnto, ih]
  | itself noEscape noSpace _ ih =>
      rw [octetsOnto, ih]
      · simp
      all_goals simp_all

private theorem exists_spells_of_octetsOnto {component : List Char} {done result : Octets}
    (isRead : octetsOnto done component = some result) :
    ∃ octets, Spells component octets ∧ result = done.reverse ++ octets := by
  fun_induction octetsOnto done component with
  | case1 done =>
      cases isRead
      exact ⟨[], .nothing, by simp⟩
  | case2 done high low rest octet escaped ih =>
      rcases ih isRead with ⟨octets, spells, same⟩
      exact ⟨octet :: octets, .escape escaped spells, by simp [same]⟩
  | case3 | case4 =>
      cases isRead
  | case5 done rest ih =>
      rcases ih isRead with ⟨octets, spells, same⟩
      exact ⟨0x20 :: octets, .space spells, by simp [same]⟩
  | case6 done character rest noEscape noEscapeToo noSpace ih =>
      rcases ih isRead with ⟨octets, spells, same⟩
      exact ⟨_, .itself (by simp_all) (by simp_all) spells, by simp [same]⟩

theorem octets?_eq_some_iff {component : String} {octets : Octets} :
    octets? component = some octets ↔ Spells component.toList octets := by
  constructor
  · intro isRead
    rcases exists_spells_of_octetsOnto isRead with ⟨found, spells, same⟩
    rw [same]
    exact spells
  · intro spells
    exact octetsOnto_of_spells spells []

theorem decode_eq_ok_iff {component value : String} :
    decode component = .ok value ↔ Spells component.toList (Octets.ofText value) := by
  rw [← octets?_eq_some_iff]
  unfold decode
  cases octets? component with
  | none =>
      simp
  | some octets =>
      rw [Option.some_inj, ← Utf8.read_eq_ok_iff]
      dsimp only
      cases Utf8.read octets with
      | error fault =>
          simp
      | ok found =>
          simp

/-! ### Every escape is complete -/

def Everywhere (holds : Char → List Char → Prop) (text : List Char) : Prop :=
  ∀ front character rest, text = front ++ character :: rest → holds character rest

theorem everywhere_nil {holds : Char → List Char → Prop} : Everywhere holds [] := by
  intro front character rest same
  simp at same

theorem everywhere_cons {holds : Char → List Char → Prop} {first : Char} {text : List Char} :
    Everywhere holds (first :: text) ↔ holds first text ∧ Everywhere holds text := by
  constructor
  · intro everywhere
    refine ⟨everywhere [] first text rfl, ?_⟩
    intro front character rest same
    exact everywhere (first :: front) character rest (by rw [same, List.cons_append])
  · rintro ⟨here, later⟩ front character rest same
    cases front with
    | nil =>
        cases same
        exact here
    | cons other front =>
        rcases List.cons.inj same with ⟨_, sameToo⟩
        exact later front character rest sameToo

def StartsWithDigits (rest : List Char) : Prop :=
  ∃ high low further, rest = high :: low :: further ∧ (hexValue? high).isSome ∧ (hexValue? low).isSome

def WellEscaped (component : List Char) : Prop :=
  Everywhere (fun character rest => character = '%' → StartsWithDigits rest) component

theorem escaped?_isSome_iff {high low : Char} :
    (escaped? high low).isSome ↔ (hexValue? high).isSome ∧ (hexValue? low).isSome := by
  unfold escaped?
  cases hexValue? high with
  | none =>
      simp
  | some upper =>
      cases hexValue? low with
      | none =>
          simp
      | some lower =>
          simp

theorem ascii_of_hexValue? {digit : Char} (isDigit : (hexValue? digit).isSome) :
    digit.toNat < 128 ∧ digit ≠ '%' ∧ digit ≠ '+' := by
  have small : digit.toNat < 128 := by
    unfold hexValue? at isDigit
    dsimp only at isDigit
    split_ifs at isDigit
    · omega
    · omega
    · omega
    · cases isDigit
  refine ⟨small, ?_, ?_⟩
  · rintro rfl
    exact absurd isDigit (by decide)
  · rintro rfl
    exact absurd isDigit (by decide)

private theorem Spells.wellEscaped {component : List Char} {octets : Octets}
    (spells : Spells component octets) :
    WellEscaped component := by
  induction spells with
  | nothing =>
      exact everywhere_nil
  | escape escaped _ ih =>
      rcases escaped?_isSome_iff.mp (Option.isSome_of_eq_some escaped) with ⟨isHigh, isLow⟩
      have notHigh := (ascii_of_hexValue? isHigh).2.1
      have notLow := (ascii_of_hexValue? isLow).2.1
      refine everywhere_cons.mpr ⟨fun _ => ⟨_, _, _, rfl, isHigh, isLow⟩, ?_⟩
      refine everywhere_cons.mpr ⟨fun same => absurd same notHigh, ?_⟩
      exact everywhere_cons.mpr ⟨fun same => absurd same notLow, ih⟩
  | space _ ih =>
      exact everywhere_cons.mpr ⟨fun same => absurd same (by decide), ih⟩
  | itself noEscape _ _ ih =>
      exact everywhere_cons.mpr ⟨fun same => absurd same noEscape, ih⟩

private theorem exists_spells_of_wellEscaped {component : List Char} (complete : WellEscaped component) :
    ∃ octets, Spells component octets := by
  -- An escape is three characters, so the induction is on the length.
  induction size : component.length using Nat.strongRecOn generalizing component with
  | ind length ih =>
      cases component with
      | nil =>
          exact ⟨[], .nothing⟩
      | cons first rest =>
          rcases everywhere_cons.mp complete with ⟨here, later⟩
          by_cases mark : first = '%'
          · rcases here mark with ⟨high, low, further, same, isHigh, isLow⟩
            subst mark same
            rcases Option.isSome_iff_exists.mp (escaped?_isSome_iff.mpr ⟨isHigh, isLow⟩) with ⟨octet, escaped⟩
            have completeToo := (everywhere_cons.mp (everywhere_cons.mp later).2).2
            have shorter : further.length < length := by
              rw [← size]
              simp only [List.length_cons]
              omega
            rcases ih further.length shorter completeToo rfl with ⟨octets, spells⟩
            exact ⟨_, .escape escaped spells⟩
          · rcases ih rest.length (by simp [← size]) later rfl with ⟨octets, spells⟩
            by_cases plus : first = '+'
            · subst plus
              exact ⟨_, .space spells⟩
            · exact ⟨_, .itself mark plus spells⟩

/-! ### Three steps -/

def escapedOctet? (high low : UInt8) : Option UInt8 :=
  escaped? (Char.ofNat high.toNat) (Char.ofNat low.toNat)

def escapesChecked : Octets → Bool
  | [] => true
  | 0x25 :: high :: low :: rest => (escapedOctet? high low).isSome && escapesChecked rest
  | 0x25 :: _ => false
  | _ :: rest => escapesChecked rest

def spaced (component : List Char) : List Char :=
  component.map fun character => if character = '+' then ' ' else character

/-- The octets with every escape resolved. What looks like an escape and is none stays as it is. -/
def resolved : Octets → Octets
  | [] => []
  | 0x25 :: high :: low :: rest =>
    match escapedOctet? high low with
    | some octet => octet :: resolved rest
    | none => 0x25 :: resolved (high :: low :: rest)
  | octet :: rest => octet :: resolved rest

/-- The octets that a component stands for, read octet by octet. -/
def bytewise (component : List Char) : Octets :=
  resolved (Octets.ofText (String.ofList (spaced component)))

private theorem escapesChecked_append {octets rest : Octets} (free : 0x25 ∉ octets) :
    escapesChecked (octets ++ rest) = escapesChecked rest := by
  induction octets with
  | nil =>
      rfl
  | cons octet octets ih =>
      rcases List.ne_and_not_mem_of_not_mem_cons free with ⟨other, free⟩
      rw [List.cons_append, escapesChecked, ih free]
      all_goals simp [other.symm]

private theorem resolved_append {octets rest : Octets} (free : 0x25 ∉ octets) :
    resolved (octets ++ rest) = octets ++ resolved rest := by
  induction octets with
  | nil =>
      rfl
  | cons octet octets ih =>
      rcases List.ne_and_not_mem_of_not_mem_cons free with ⟨other, free⟩
      rw [List.cons_append, resolved, ih free, List.cons_append]
      simp [other.symm]

private theorem escapedOctet?_eq {high low : Char} (isHigh : high.toNat < 128) (isLow : low.toNat < 128) :
    escapedOctet? (UInt8.ofNat high.toNat) (UInt8.ofNat low.toNat) = escaped? high low := by
  unfold escapedOctet?
  rw [UInt8.toNat_ofNat', UInt8.toNat_ofNat', Nat.mod_eq_of_lt (by omega), Nat.mod_eq_of_lt (by omega),
    Char.ofNat_toNat, Char.ofNat_toNat]

private theorem ofText_escape {high low : Char} {octet : UInt8} (escaped : escaped? high low = some octet)
    (rest : List Char) :
    ∃ first second, escapedOctet? first second = some octet ∧
      Octets.ofText (String.ofList ('%' :: high :: low :: rest)) =
        0x25 :: first :: second :: Octets.ofText (String.ofList rest) := by
  rcases escaped?_isSome_iff.mp (Option.isSome_of_eq_some escaped) with ⟨isHigh, isLow⟩
  have smallHigh := (ascii_of_hexValue? isHigh).1
  have smallLow := (ascii_of_hexValue? isLow).1
  refine ⟨_, _, (escapedOctet?_eq smallHigh smallLow).trans escaped, ?_⟩
  rw [ofText_cons, ofText_cons, ofText_cons, ofText_ascii smallHigh, ofText_ascii smallLow,
    ofText_ascii (by decide)]
  rfl

private theorem spaced_of_ne {character : Char} (other : character ≠ '+') (rest : List Char) :
    spaced (character :: rest) = character :: spaced rest := by
  simp [spaced, other]

/-- What the grammar says is what the three steps give. -/
theorem Spells.in_steps {component : List Char} {octets : Octets} (spells : Spells component octets) :
    escapesChecked (Octets.ofText (String.ofList component)) = true ∧ bytewise component = octets := by
  unfold bytewise
  induction spells with
  | nothing =>
      exact ⟨rfl, rfl⟩
  | @escape high low octet rest octets escaped _ ih =>
      rcases escaped?_isSome_iff.mp (Option.isSome_of_eq_some escaped) with ⟨isHigh, isLow⟩
      have noPlus := (ascii_of_hexValue? isHigh).2.2
      have noPlusToo := (ascii_of_hexValue? isLow).2.2
      constructor
      · rcases ofText_escape escaped rest with ⟨first, second, same, spelled⟩
        rw [spelled, escapesChecked, same, ih.1]
        rfl
      · rw [spaced_of_ne (by decide), spaced_of_ne noPlus, spaced_of_ne noPlusToo]
        rcases ofText_escape escaped (spaced rest) with ⟨first, second, same, spelled⟩
        rw [spelled, resolved, same]
        exact congrArg (octet :: ·) ih.2
  | @space rest octets _ ih =>
      have free : (0x25 : UInt8) ∉ Octets.ofText (String.singleton '+') := escapeMark_not_mem (by decide)
      have freeToo : (0x25 : UInt8) ∉ Octets.ofText (String.singleton ' ') := escapeMark_not_mem (by decide)
      constructor
      · rw [ofText_cons, escapesChecked_append free, ih.1]
      · change resolved (Octets.ofText (String.ofList (' ' :: spaced rest))) = _
        rw [ofText_cons, resolved_append freeToo, ih.2, ofText_ascii (by decide)]
        rfl
  | @itself character rest octets noEscape noSpace _ ih =>
      have free := escapeMark_not_mem noEscape
      constructor
      · rw [ofText_cons, escapesChecked_append free, ih.1]
      · rw [spaced_of_ne noSpace, ofText_cons, resolved_append free, ih.2]

theorem toNat_ofNat_octet (octet : UInt8) : (Char.ofNat octet.toNat).toNat = octet.toNat := by
  have below := octet.toNat_lt
  have valid : octet.toNat.isValidChar := .inl (by omega)
  unfold Char.ofNat
  rw [dif_pos valid]
  rfl

private theorem exists_cons_of_ofText {text : List Char} {octet : UInt8} {octets : Octets}
    (spelled : Octets.ofText (String.ofList text) = octet :: octets) (ascii : octet.toNat < 128) :
    ∃ rest, text = Char.ofNat octet.toNat :: rest ∧ Octets.ofText (String.ofList rest) = octets := by
  cases text with
  | nil =>
      cases spelled
  | cons first rest =>
      rw [ofText_cons] at spelled
      rcases List.exists_cons_of_ne_nil (ofText_singleton_ne_nil first) with ⟨head, tail, split⟩
      rw [split, List.cons_append] at spelled
      rcases List.cons.inj spelled with ⟨same, sameRest⟩
      subst same
      rcases eq_of_mem_ofText (split ▸ List.mem_cons_self) ascii with ⟨alone, isFirst⟩
      rw [alone] at split
      rcases List.cons.inj split with ⟨_, noMore⟩
      rw [← noMore, List.nil_append] at sameRest
      exact ⟨rest, by rw [← isFirst], sameRest⟩

/-- The check of the octets lets through only components in which every escape is complete. -/
theorem wellEscaped_of_escapesChecked {component : List Char}
    (complete : escapesChecked (Octets.ofText (String.ofList component)) = true) : WellEscaped component := by
  induction component with
  | nil =>
      exact everywhere_nil
  | cons first rest ih =>
      by_cases mark : first = '%'
      · subst mark
        rw [ofText_cons, ofText_ascii (by decide)] at complete
        change escapesChecked (0x25 :: Octets.ofText (String.ofList rest)) = true at complete
        rcases spelled : Octets.ofText (String.ofList rest) with _ | ⟨high, _ | ⟨low, octets⟩⟩
        · rw [spelled] at complete
          cases complete
        · rw [spelled] at complete
          cases complete
        · rw [spelled, escapesChecked, Bool.and_eq_true] at complete
          rcases escaped?_isSome_iff.mp complete.1 with ⟨isHigh, isLow⟩
          rcases ascii_of_hexValue? isHigh with ⟨smallHigh, noHigh, _⟩
          rcases ascii_of_hexValue? isLow with ⟨smallLow, noLow, _⟩
          rw [toNat_ofNat_octet] at smallHigh smallLow
          rcases exists_cons_of_ofText spelled smallHigh with ⟨afterHigh, same, spelledToo⟩
          rcases exists_cons_of_ofText spelledToo smallLow with ⟨further, sameToo, spelledFurther⟩
          subst same sameToo
          refine everywhere_cons.mpr ⟨fun _ => ⟨_, _, _, rfl, isHigh, isLow⟩, ih ?_⟩
          rw [ofText_cons, escapesChecked_append (escapeMark_not_mem noHigh), ofText_cons,
            escapesChecked_append (escapeMark_not_mem noLow), spelledFurther]
          exact complete.2
      · rw [ofText_cons, escapesChecked_append (escapeMark_not_mem mark)] at complete
        exact everywhere_cons.mpr ⟨fun same => absurd same mark, ih complete⟩

/-- A component is read in three steps: the escapes are checked, plus signs become spaces, and what is left
is resolved octet by octet. -/
theorem decode_eq_in_steps (component : String) :
    decode component =
      if escapesChecked (Octets.ofText component) then
        match Utf8.read (bytewise component.toList) with
        | .ok value => .ok value
        | .error fault => .error (.malformed (.parameterText fault))
      else .error (.malformed (.percentEncoding component)) := by
  unfold decode
  cases found : octets? component with
  | some octets =>
      rcases (octets?_eq_some_iff.mp found).in_steps with ⟨complete, same⟩
      rw [String.ofList_toList] at complete
      subst same
      exact (if_pos complete).symm
  | none =>
      rw [if_neg]
      intro complete
      rw [← @String.ofList_toList component] at complete
      rcases exists_spells_of_wellEscaped (wellEscaped_of_escapesChecked complete) with ⟨octets, spells⟩
      rw [octets?_eq_some_iff.mpr spells] at found
      cases found

/-- A component is read exactly where every escape in it is complete and its octets are UTF-8. -/
theorem decode_eq_ok_iff_bytewise {component value : String} :
    decode component = .ok value ↔
      WellEscaped component.toList ∧ bytewise component.toList = Octets.ofText value := by
  rw [decode_eq_ok_iff]
  constructor
  · intro spells
    exact ⟨spells.wellEscaped, spells.in_steps.2⟩
  · intro given
    rcases given with ⟨complete, same⟩
    rcases exists_spells_of_wellEscaped complete with ⟨octets, spells⟩
    rw [← same, spells.in_steps.2]
    exact spells

end SamlGate.Percent
