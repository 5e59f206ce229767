import SamlGate.Proofs.Canonical.Escape
import SamlGate.Proofs.Codec.Reading

/-!
Escaping loses nothing.

A text is escaped octet by octet, in runs, and what is written is all the same what its characters are written
as, one after the other. Only seven entities are written. Where ampersands are escaped each ampersand that is
read begins one of them, so putting back the characters of the entities gives the text that was escaped.
-/

namespace SamlGate.Canonical

open Xml

/-! ### Runs of octets -/

def Place.octetSpelling (place : Place) (octet : UInt8) : Octets :=
  (place.octetReference? octet).getD [octet]

private theorem Place.flatMap_octetSpelling_of_kept {place : Place} {octets : Octets}
    (kept : ∀ octet ∈ octets, place.octetReference? octet = none) :
    octets.flatMap place.octetSpelling = octets := by
  induction octets with
  | nil =>
      rfl
  | cons octet octets ih =>
      obtain ⟨here, later⟩ := List.forall_mem_cons.mp kept
      rw [List.flatMap_cons, ih later, octetSpelling, here]
      rfl

/-- The octets that are passed but not copied yet are octets that stay. -/
theorem Place.writeFrom_eq {place : Place} {octets done rest out : Octets} {start : Nat}
    (divides : octets = done ++ rest) (within : start ≤ done.length)
    (kept : ∀ octet ∈ done.drop start, place.octetReference? octet = none) :
    place.writeFrom octets start done.length out rest =
      out ++ (octets.drop start).flatMap place.octetSpelling := by
  induction rest generalizing done start out with
  | nil =>
      rw [List.append_nil] at divides
      rw [divides, writeFrom, flatMap_octetSpelling_of_kept kept]
  | cons octet rest ih =>
      have dividesNext : octets = (done ++ [octet]) ++ rest := by
        rw [divides, List.append_assoc, List.singleton_append]
      have passed : (done ++ [octet]).length = done.length + 1 := by simp
      have left : octets.drop start = done.drop start ++ octet :: rest := by
        rw [divides, List.drop_append_of_le_length within]
      cases found : place.octetReference? octet with
      | none =>
          have step : place.writeFrom octets start done.length out (octet :: rest) =
              place.writeFrom octets start (done ++ [octet]).length out rest := by
            rw [writeFrom, found, passed]
          have keptNext : ∀ kept ∈ (done ++ [octet]).drop start, place.octetReference? kept = none := by
            rw [List.drop_append_of_le_length within]
            exact List.forall_mem_append.mpr ⟨kept, List.forall_mem_singleton.mpr found⟩
          rw [step]
          exact ih dividesNext (by omega) keptNext
      | some reference =>
          have run : octets.extract start done.length = done.drop start := by
            rw [List.extract_eq_take_drop, left, List.take_left' List.length_drop]
          have step : place.writeFrom octets start done.length out (octet :: rest) =
              place.writeFrom octets (done ++ [octet]).length (done ++ [octet]).length
                (out ++ done.drop start ++ reference) rest := by
            rw [writeFrom, found, passed, run]
          have noneKept : ∀ kept ∈ (done ++ [octet]).drop (done ++ [octet]).length,
              place.octetReference? kept = none := by
            rw [List.drop_length]
            exact List.forall_mem_nil _
          have behind : octets.drop (done ++ [octet]).length = rest := by
            rw [dividesNext, List.drop_left]
          rw [step, ih dividesNext (Nat.le_refl _) noneKept, behind, left, List.flatMap_append,
            flatMap_octetSpelling_of_kept kept, List.flatMap_cons, octetSpelling, found]
          simp

private theorem Place.write_eq_flatMap_octets (place : Place) (out : Octets) (text : String) :
    place.write out text = out ++ (Octets.ofText text).flatMap place.octetSpelling := by
  have kept : ∀ octet ∈ ([] : Octets).drop 0, place.octetReference? octet = none := List.forall_mem_nil _
  exact writeFrom_eq (List.nil_append _).symm (Nat.le_refl 0) kept

/-! ### Octets of characters -/

private theorem Place.reference?_of_large {place : Place} {character : Char}
    (large : 128 ≤ character.toNat) :
    place.reference? character = none := by
  have other {named : Char} (small : named.toNat < 128) : character ≠ named := by
    rintro rfl
    omega
  cases place <;> simp [reference?, other]

/-- What is written for a character is written octet by octet: either it is spelled by one octet, or none of
its octets is replaced. -/
theorem Place.flatMap_octetSpelling_character (place : Place) (character : Char) :
    (Octets.ofText (String.singleton character)).flatMap place.octetSpelling =
      Octets.ofText (String.ofList (place.spelling character)) := by
  by_cases small : character.toNat < 128
  · have whole : Char.ofNat (UInt8.ofNat character.toNat).toNat = character := by
      rw [UInt8.toNat_ofNat', Nat.mod_eq_of_lt (by omega), Char.ofNat_toNat]
    rw [Percent.ofText_ascii small, List.flatMap_singleton, octetSpelling, octetReference?, whole, spelling]
    cases place.reference? character with
    | none =>
        exact (Percent.ofText_ascii small).symm
    | some reference =>
        exact congrArg Octets.ofText String.ofList_toList.symm
  · have large : 128 ≤ character.toNat := Nat.le_of_not_lt small
    have kept : ∀ octet ∈ Octets.ofText (String.singleton character), place.octetReference? octet = none := by
      intro octet member
      have high : 128 ≤ octet.toNat := by
        by_contra low
        obtain ⟨_, same⟩ := Percent.eq_of_mem_ofText member (Nat.lt_of_not_le low)
        rw [same, Percent.toNat_ofNat_octet] at large
        exact low large
      rw [octetReference?, reference?_of_large (by rwa [Percent.toNat_ofNat_octet]), Option.map_none]
    rw [flatMap_octetSpelling_of_kept kept, spelling, reference?_of_large large]
    rfl

private theorem Place.flatMap_octetSpelling (place : Place) (characters : List Char) :
    (Octets.ofText (String.ofList characters)).flatMap place.octetSpelling =
      characters.flatMap fun character => Octets.ofText (String.ofList (place.spelling character)) := by
  induction characters with
  | nil =>
      rfl
  | cons character characters ih =>
      rw [Percent.ofText_cons, List.flatMap_append, ih, flatMap_octetSpelling_character, List.flatMap_cons]

/-- What is written octet by octet is what is written character by character. -/
theorem Place.write_eq (place : Place) (out : Octets) (text : String) :
    place.write out text =
      out ++ text.toList.flatMap fun character => Octets.ofText (String.ofList (place.spelling character)) := by
  rw [write_eq_flatMap_octets, ← flatMap_octetSpelling, String.ofList_toList]

private theorem ofText_spelled (place : Place) (characters : List Char) :
    Octets.ofText (String.ofList (spelled place characters)) =
      characters.flatMap fun character => Octets.ofText (String.ofList (place.spelling character)) := by
  induction characters with
  | nil =>
      rfl
  | cons character characters ih =>
      rw [spelled_cons, String.ofList_append, Octets.ofText_append, ih, List.flatMap_cons]

private theorem Place.write_eq_escaped (place : Place) (out : Octets) (text : String) :
    place.write out text = out ++ Octets.ofText (String.ofList (escaped place text)) := by
  rw [write_eq, escaped_eq_spelled, ofText_spelled]

private theorem Place.escape_eq (place : Place) (text : String) :
    place.escape text = String.ofList (escaped place text) := by
  rw [escape, write_eq_escaped, List.nil_append, Octets.text?_ofText, Option.getD_some]

/-! ### Entities -/

/-- The entities that are written, without their ampersands, and the characters that they stand for. -/
def entities : List (String × Char) :=
  [("amp;", '&'), ("lt;", '<'), ("gt;", '>'), ("quot;", '"'), ("#x9;", '\t'), ("#xA;", '\n'), ("#xD;", '\r')]

def entity? (text : List Char) : Option (Char × List Char) :=
  entities.findSome? fun (name, character) =>
    (Text.after? name.toList text).map fun behind => (character, behind)

private theorem length_le_of_entity? {text behind : List Char} {character : Char}
    (begins : entity? text = some (character, behind)) : behind.length ≤ text.length := by
  obtain ⟨_, _, found⟩ := List.exists_of_findSome?_eq_some begins
  obtain ⟨_, isRest, same⟩ := Option.map_eq_some_iff.mp found
  cases same
  rw [Text.after?_eq_some_iff.mp isRest, List.length_append]
  exact Nat.le_add_left _ _

/-- The text with the characters in place of the entities. Anything else stays as it is. -/
def resolved : List Char → List Char
  | [] => []
  | first :: rest =>
    if first = '&' then
      match _ : entity? rest with
      | some (character, behind) => character :: resolved behind
      | none => first :: resolved rest
    else first :: resolved rest
termination_by text => text.length
decreasing_by
  · rename_i begins
    exact Nat.lt_succ_of_le (length_le_of_entity? begins)
  · exact Nat.lt_succ_self _
  · exact Nat.lt_succ_self _

private theorem resolved_of_ne {first : Char} (other : first ≠ '&') (rest : List Char) :
    resolved (first :: rest) = first :: resolved rest := by
  rw [resolved, if_neg other]

private theorem resolved_of_entity? {rest behind : List Char} {character : Char}
    (begins : entity? rest = some (character, behind)) :
    resolved ('&' :: rest) = character :: resolved behind := by
  rw [resolved, if_pos rfl]
  split
  · rename_i found
    rw [begins] at found
    cases found
    rfl
  · rename_i found
    rw [begins] at found
    cases found

private theorem entity?_of_mem {name : String} {character : Char} (member : (name, character) ∈ entities)
    (rest : List Char) : entity? (name.toList ++ rest) = some (character, rest) := by
  unfold entities at member
  simp only [List.mem_cons, Prod.mk.injEq, List.not_mem_nil, or_false] at member
  rcases member with ⟨rfl, rfl⟩ | ⟨rfl, rfl⟩ | ⟨rfl, rfl⟩ | ⟨rfl, rfl⟩ | ⟨rfl, rfl⟩ | ⟨rfl, rfl⟩ | ⟨rfl, rfl⟩
  all_goals
    rfl

private theorem Place.mem_entities {place : Place} {character : Char} {reference : String}
    (found : place.reference? character = some reference) :
    ∃ name, reference.toList = '&' :: name.toList ∧ (name, character) ∈ entities := by
  unfold reference? at found
  split at found
  all_goals
    repeat' split at found
  all_goals
    cases found
  all_goals
    subst_vars
  all_goals
    first
    | exact ⟨"amp;", rfl, by decide⟩
    | exact ⟨"lt;", rfl, by decide⟩
    | exact ⟨"gt;", rfl, by decide⟩
    | exact ⟨"quot;", rfl, by decide⟩
    | exact ⟨"#x9;", rfl, by decide⟩
    | exact ⟨"#xA;", rfl, by decide⟩
    | exact ⟨"#xD;", rfl, by decide⟩

/-! ### Putting characters back -/

section Data

variable {place : Place} (data : place.reference? '&' ≠ none)

include data

private theorem resolved_spelling (character : Char) (rest : List Char) :
    resolved (place.spelling character ++ rest) = character :: resolved rest := by
  unfold Place.spelling
  cases found : place.reference? character with
  | none =>
      have other : character ≠ '&' := by
        rintro rfl
        exact data found
      exact resolved_of_ne other rest
  | some reference =>
      obtain ⟨name, spells, member⟩ := Place.mem_entities found
      simp only [spells, List.cons_append]
      exact resolved_of_entity? (entity?_of_mem member rest)

private theorem resolved_spelled (characters : List Char) :
    resolved (spelled place characters) = characters := by
  induction characters with
  | nil =>
      rw [spelled, List.flatMap_nil, resolved]
  | cons character characters ih =>
      rw [spelled_cons, resolved_spelling data, ih]

end Data

def AmpersandsBegin (text : List Char) : Prop :=
  ∀ front rest, text = front ++ '&' :: rest →
    ∃ name character, (name, character) ∈ entities ∧ name.toList <+: rest

private theorem ampersand_not_mem_name {name : String} {character : Char}
    (member : (name, character) ∈ entities) :
    '&' ∉ name.toList := by
  have none : ∀ entity ∈ entities, '&' ∉ entity.1.toList := by decide
  exact none (name, character) member

theorem AmpersandsBegin.append {plain rest : List Char} (unmarked : '&' ∉ plain) (begin : AmpersandsBegin rest) :
    AmpersandsBegin (plain ++ rest) := by
  intro front behind same
  rcases List.append_eq_append_iff.mp same with ⟨between, _, inRest⟩ | ⟨between, inPlain, splits⟩
  · exact begin between behind inRest
  · cases between with
    | nil =>
        exact begin [] behind splits.symm
    | cons mark between =>
        have isMark : '&' = mark := (List.cons.inj splits).1
        have marked : '&' ∈ plain := by
          rw [inPlain, isMark]
          exact List.mem_append_right _ List.mem_cons_self
        exact absurd marked unmarked

private theorem ampersandsBegin_spelling_append {place : Place} (data : place.reference? '&' ≠ none)
    (character : Char) {rest : List Char} (begin : AmpersandsBegin rest) :
    AmpersandsBegin (place.spelling character ++ rest) := by
  unfold Place.spelling
  cases found : place.reference? character with
  | none =>
      have unmarked : '&' ∉ [character] := by
        intro marked
        rw [← List.mem_singleton.mp marked] at found
        exact data found
      exact begin.append unmarked
  | some reference =>
      obtain ⟨name, spells, member⟩ := Place.mem_entities found
      have named : AmpersandsBegin (name.toList ++ rest) := begin.append (ampersand_not_mem_name member)
      simp only [spells]
      intro front behind same
      cases front with
      | nil =>
          have isRest : name.toList ++ rest = behind := (List.cons.inj same).2
          exact ⟨name, character, member, isRest ▸ List.prefix_append _ _⟩
      | cons first front =>
          exact named front behind (List.cons.inj same).2

private theorem ampersandsBegin_spelled {place : Place} (data : place.reference? '&' ≠ none)
    (characters : List Char) : AmpersandsBegin (spelled place characters) := by
  induction characters with
  | nil =>
      intro front rest same
      cases front with
      | nil =>
          cases same
      | cons first front =>
          cases same
  | cons character characters ih =>
      rw [spelled_cons]
      exact ampersandsBegin_spelling_append data character ih

/-! ### Nothing is lost -/

def Place.excluded : Place → List Char
  | .text => ['<', '>', '\r']
  | .attributeValue => ['<', '"', '\t', '\n', '\r']
  | .instruction => ['\r']

private theorem Place.not_mem_spelled_of_excluded {place : Place} {character : Char}
    (excluded : character ∈ place.excluded) (characters : List Char) :
    character ∉ spelled place characters := by
  have allReferenced : (place.excluded.all fun excluded => (place.reference? excluded).isSome) = true := by
    cases place <;> rfl
  have noneWritten :
      (place.excluded.any fun excluded => ('&' :: ';' :: ofReferences).contains excluded) = false := by
    cases place <;> rfl
  have referenced : (place.reference? character).isSome = true :=
    List.all_eq_true.mp allReferenced character excluded
  have inNone : character ∉ '&' :: ';' :: ofReferences := by
    intro written
    exact List.any_eq_false.mp noneWritten character excluded (List.contains_iff_mem.mpr written)
  exact not_mem_spelled referenced inNone characters

private theorem Place.toList_escape (place : Place) (text : String) :
    (place.escape text).toList = spelled place text.toList := by
  rw [escape_eq, String.toList_ofList, escaped_eq_spelled]

private theorem Place.text?_write (place : Place) (text : String) :
    Octets.text? (place.write [] text) = some (place.escape text) := by
  rw [write_eq_escaped, List.nil_append, Octets.text?_ofText, escape_eq]

private theorem Place.write_inj {place : Place} (data : place.reference? '&' ≠ none) {left right : String} :
    place.write [] left = place.write [] right ↔ left = right := by
  constructor
  · intro same
    have escaped : some (place.escape left) = some (place.escape right) := by
      rw [← text?_write, ← text?_write, same]
    have spelled : spelled place left.toList = spelled place right.toList := by
      rw [← toList_escape, ← toList_escape, Option.some.inj escaped]
    have resolves := congrArg resolved spelled
    rw [resolved_spelled data, resolved_spelled data] at resolves
    exact String.toList_inj.mp resolves
  · rintro rfl
    rfl

/-- Escaping goes through a text character by character and loses nothing. -/
theorem escaping_loses_nothing (place : Place) (out : Octets) (left right : String) :
    place.write out left =
        out ++ left.toList.flatMap (fun character => Octets.ofText (String.ofList (place.spelling character))) ∧
      place.write out (left ++ right) = place.write (place.write out left) right ∧
      place.escape (left ++ right) = place.escape left ++ place.escape right ∧
      Octets.text? (place.write [] left) = some (place.escape left) ∧
      (place ≠ .instruction →
        resolved (place.escape left).toList = left.toList ∧
        (place.write [] left = place.write [] right ↔ left = right) ∧
        (∀ excluded ∈ place.excluded, excluded ∉ (place.escape left).toList) ∧
        AmpersandsBegin (place.escape left).toList) := by
  have appended : place.write out (left ++ right) = place.write (place.write out left) right := by
    simp only [Place.write_eq_escaped, escaped_append, String.ofList_append, Octets.ofText_append,
      List.append_assoc]
  have joined : place.escape (left ++ right) = place.escape left ++ place.escape right := by
    simp only [Place.escape_eq, escaped_append, String.ofList_append]
  refine ⟨place.write_eq out left, appended, joined, place.text?_write left, ?_⟩
  intro other
  have data : place.reference? '&' ≠ none := by
    cases place with
    | text => decide
    | attributeValue => decide
    | instruction => exact absurd rfl other
  rw [Place.toList_escape]
  refine ⟨resolved_spelled data _, Place.write_inj data, ?_, ampersandsBegin_spelled data _⟩
  intro character excluded
  exact Place.not_mem_spelled_of_excluded excluded _

theorem escaping_loses_nothing_attribute :
    Place.attributeValue ≠ .instruction ∧
      Place.attributeValue.escape "\tü&&lt;" = "&#x9;ü&amp;&amp;lt;" ∧
      Place.attributeValue.escape ("\tü&&lt;" ++ "\r\n<\">") =
        "&#x9;ü&amp;&amp;lt;" ++ Place.attributeValue.escape "\r\n<\">" ∧
      resolved "&#x9;ü&amp;&amp;lt;".toList = "\tü&&lt;".toList ∧
      AmpersandsBegin "&#x9;ü&amp;&amp;lt;".toList := by
  have written : Place.attributeValue.escape "\tü&&lt;" = "&#x9;ü&amp;&amp;lt;" := by
    rw [Place.escape_eq]
    decide
  have other : Place.attributeValue ≠ .instruction := by decide
  obtain ⟨_, _, joined, _, kept⟩ :=
    escaping_loses_nothing .attributeValue [] "\tü&&lt;" "\r\n<\">"
  obtain ⟨resolves, _, _, begin⟩ := kept other
  rw [written] at joined resolves begin
  exact ⟨other, written, joined, resolves, begin⟩

end SamlGate.Canonical
