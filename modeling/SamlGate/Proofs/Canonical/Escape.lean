import SamlGate.Canonical.Escape
import SamlGate.Proofs.Xml.Markup

/-!
Escaped character data is read as it was.

What is written for a text or an attribute value has no markup in it and is read as the same characters:
whatever reading would change is written by reference.
-/

namespace SamlGate.Canonical

open Xml

def spelled (place : Place) (characters : List Char) : List Char :=
  characters.flatMap place.spelling

theorem spelled_cons (place : Place) (first : Char) (rest : List Char) :
    spelled place (first :: rest) = place.spelling first ++ spelled place rest :=
  rfl

theorem spelled_append (place : Place) (front back : List Char) :
    spelled place (front ++ back) = spelled place front ++ spelled place back :=
  List.flatMap_append

theorem escaped_eq_spelled (place : Place) (text : String) : escaped place text = spelled place text.toList :=
  rfl

/-! ### The characters that are written -/

def ofReferences : List Char :=
  ['a', 'm', 'p', 'l', 't', 'g', 'q', 'u', 'o', '#', 'x', 'D', '9', 'A']

private theorem Place.exists_of_reference? {place : Place} {character : Char} {reference : String}
    (found : place.reference? character = some reference) :
    ∃ name, reference.toList = '&' :: (name ++ [';']) ∧ referenced? name = some character ∧
      ∀ written ∈ name, written ∈ ofReferences := by
  unfold Place.reference? at found
  split at found
  all_goals
    repeat' split at found
  all_goals
    cases found
  all_goals
    subst_vars
  all_goals
    first
    | exact ⟨['a', 'm', 'p'], rfl, rfl, by simp [ofReferences]⟩
    | exact ⟨['l', 't'], rfl, rfl, by simp [ofReferences]⟩
    | exact ⟨['g', 't'], rfl, rfl, by simp [ofReferences]⟩
    | exact ⟨['q', 'u', 'o', 't'], rfl, rfl, by simp [ofReferences]⟩
    | exact ⟨['#', 'x', 'D'], rfl, rfl, by simp [ofReferences]⟩
    | exact ⟨['#', 'x', '9'], rfl, rfl, by simp [ofReferences]⟩
    | exact ⟨['#', 'x', 'A'], rfl, rfl, by simp [ofReferences]⟩

private theorem Place.spelling_cases (place : Place) (character : Char) :
    place.reference? character = none ∧ place.spelling character = [character] ∨
      ∃ name, (place.reference? character).isSome = true ∧
        place.spelling character = '&' :: (name ++ [';']) ∧ referenced? name = some character ∧
        ∀ written ∈ name, written ∈ ofReferences := by
  unfold Place.spelling
  cases found : place.reference? character with
  | none =>
      exact Or.inl ⟨rfl, rfl⟩
  | some reference =>
      obtain ⟨name, spells, names, consists⟩ := Place.exists_of_reference? found
      exact Or.inr ⟨name, rfl, spells, names, consists⟩

private theorem Place.spelling_ne_nil (place : Place) (character : Char) :
    place.spelling character ≠ [] := by
  rcases place.spelling_cases character with ⟨_, same⟩ | ⟨name, _, same, _⟩
  · rw [same]
    exact List.cons_ne_nil _ _
  · rw [same]
    exact List.cons_ne_nil _ _

private theorem Place.mem_spelling {place : Place} {character written : Char}
    (member : written ∈ place.spelling character) :
    place.reference? character = none ∧ written = character ∨ written ∈ '&' :: ';' :: ofReferences := by
  rcases place.spelling_cases character with ⟨unreferenced, same⟩ | ⟨name, _, same, _, consists⟩
  · rw [same] at member
    exact Or.inl ⟨unreferenced, List.mem_singleton.mp member⟩
  · rw [same] at member
    refine Or.inr ?_
    rcases List.mem_cons.mp member with isFirst | later
    · exact List.mem_cons.mpr (Or.inl isFirst)
    · rcases List.mem_append.mp later with inName | isLast
      · exact List.mem_cons_of_mem _ (List.mem_cons_of_mem _ (consists written inName))
      · exact List.mem_cons_of_mem _ (List.mem_cons.mpr (Or.inl (List.mem_singleton.mp isLast)))

theorem spelled_ne_nil {place : Place} {characters : List Char} (nonempty : characters ≠ []) :
    spelled place characters ≠ [] := by
  obtain ⟨first, rest, rfl⟩ := List.exists_cons_of_ne_nil nonempty
  rw [spelled_cons]
  exact List.append_ne_nil_of_left_ne_nil (place.spelling_ne_nil first) _

theorem permitted_spelled {place : Place} {characters : List Char} (permitted : Permitted characters) :
    Permitted (spelled place characters) := by
  have referencesPermitted : Permitted ('&' :: ';' :: ofReferences) := by
    rw [permitted_iff_all]
    decide
  intro written member
  obtain ⟨character, among, inSpelling⟩ := List.mem_flatMap.mp member
  rcases Place.mem_spelling inSpelling with ⟨_, same⟩ | inReferences
  · rw [same]
    exact permitted character among
  · exact referencesPermitted written inReferences

theorem not_mem_spelled {place : Place} {excluded : Char}
    (referenced : (place.reference? excluded).isSome = true)
    (inNone : excluded ∉ '&' :: ';' :: ofReferences) (characters : List Char) :
    excluded ∉ spelled place characters := by
  intro member
  obtain ⟨character, _, inSpelling⟩ := List.mem_flatMap.mp member
  rcases Place.mem_spelling inSpelling with ⟨unreferenced, same⟩ | inReferences
  · rw [← same] at unreferenced
    rw [unreferenced] at referenced
    cases referenced
  · exact inNone inReferences

/-! ### Reading again -/

def Place.glyph (place : Place) (character : Char) : Glyph :=
  if (place.reference? character).isSome then .reference character else .literal character

private theorem glyphsFrom_name {opened name : List Char} (before : List Glyph) (rest : List Char)
    (consists : ∀ written ∈ name, written ∈ ofReferences) :
    glyphsFrom (some opened) before (name ++ ';' :: rest) =
      glyphsFrom (some (name.reverse ++ opened)) before (';' :: rest) := by
  induction name generalizing opened with
  | nil =>
      rfl
  | cons first name ih =>
      obtain ⟨here, later⟩ := List.forall_mem_cons.mp consists
      have notLast : first ≠ ';' := by
        rintro rfl
        exact absurd here (by decide)
      rw [List.cons_append, glyphsFrom]
      simp only [if_neg notLast]
      rw [ih later]
      simp

private theorem glyphsFrom_spelling {place : Place} {character : Char} (data : place.reference? '&' ≠ none)
    (before : List Glyph) (rest : List Char) :
    glyphsFrom none before (place.spelling character ++ rest) =
      glyphsFrom none (place.glyph character :: before) rest := by
  rcases place.spelling_cases character with
    ⟨unreferenced, same⟩ | ⟨name, referenced, same, names, consists⟩
  · have notAmpersand : character ≠ '&' := by
      rintro rfl
      exact data unreferenced
    rw [same, List.singleton_append, glyphsFrom]
    simp [notAmpersand, Place.glyph, unreferenced]
  · rw [same, List.cons_append, List.append_assoc, List.singleton_append, glyphsFrom]
    simp only [if_true]
    rw [glyphsFrom_name before rest consists, glyphsFrom]
    simp [names, Place.glyph, referenced]

private theorem glyphsFrom_spelled {place : Place} (data : place.reference? '&' ≠ none)
    (before : List Glyph)
    (characters : List Char) :
    glyphsFrom none before (spelled place characters) =
      some (before.reverse ++ characters.map place.glyph) := by
  induction characters generalizing before with
  | nil =>
      simp [spelled, glyphsFrom]
  | cons first rest ih =>
      rw [spelled_cons, glyphsFrom_spelling data, ih]
      simp

/-- Line ends are only read where a carriage return is written as it is. -/
private theorem lineFeedsFrom_glyphs (shielded : Bool) (done characters : List Char) :
    lineFeedsFrom shielded done (characters.map (Place.glyph .text)) = done.reverse ++ characters := by
  induction characters generalizing shielded done with
  | nil =>
      simp [lineFeedsFrom]
  | cons first rest ih =>
      rw [List.map_cons]
      cases found : Place.text.reference? first with
      | none =>
          have notReturn : first ≠ '\r' := by
            rintro rfl
            cases found
          simp [Place.glyph, found, lineFeedsFrom, notReturn, ih]
      | some reference =>
          simp [Place.glyph, found, lineFeedsFrom, ih]

private theorem spacesFrom_glyphs (done characters : List Char) :
    spacesFrom done (characters.map (Place.glyph .attributeValue)) = done.reverse ++ characters := by
  induction characters generalizing done with
  | nil =>
      simp [spacesFrom]
  | cons first rest ih =>
      rw [List.map_cons]
      cases found : Place.attributeValue.reference? first with
      | none =>
          have notBlank : first ≠ '\t' ∧ first ≠ '\n' ∧ first ≠ '\r' := by
            refine ⟨?_, ?_, ?_⟩
            · rintro rfl
              cases found
            · rintro rfl
              cases found
            · rintro rfl
              cases found
          simp [Place.glyph, found, spacesFrom, notBlank, ih]
      | some reference =>
          simp [Place.glyph, found, spacesFrom, ih]

theorem text?_spelled (characters : List Char) : text? (spelled .text characters) = some characters := by
  unfold text? glyphs?
  rw [glyphsFrom_spelled (by decide), Option.map_some, List.reverse_nil, List.nil_append,
    lineFeedsFrom_glyphs]
  rfl

theorem attributeValue?_spelled (characters : List Char) :
    attributeValue? (spelled .attributeValue characters) = some characters := by
  unfold attributeValue? glyphs?
  rw [glyphsFrom_spelled (by decide), Option.map_some, List.reverse_nil, List.nil_append,
    spacesFrom_glyphs]
  rfl

/-! ### Instructions -/

/-- The data of an instruction keep their first character, if it is no carriage return. -/
theorem head?_spelled_instruction {characters : List Char}
    (start : ∀ character ∈ characters.head?, isBlank character = false) :
    (spelled .instruction characters).head? = characters.head? := by
  cases characters with
  | nil =>
      rfl
  | cons first rest =>
      have notReturn : first ≠ '\r' := by
        rintro rfl
        exact absurd (start '\r' rfl) (by decide)
      simp [spelled_cons, Place.spelling, Place.reference?, notReturn]

theorem apart_spelled_instruction {characters : List Char} (apart : Text.Apart '?' '>' characters) :
    Text.Apart '?' '>' (spelled .instruction characters) := by
  induction characters with
  | nil =>
      exact .nil
  | cons first rest ih =>
      have apartRest : Text.Apart '?' '>' (spelled .instruction rest) := ih apart.tail
      rw [spelled_cons]
      by_cases isReturn : first = '\r'
      · subst isReturn
        refine List.IsChain.append (by decide) apartRest ?_
        intro last isLast next _ both
        have same : last = ';' := by
          simpa [Place.spelling, Place.reference?] using isLast.symm
        rw [same] at both
        exact absurd both.1 (by decide)
      · have asItIs : Place.instruction.spelling first = [first] := by
          simp [Place.spelling, Place.reference?, isReturn]
        rw [asItIs, List.singleton_append]
        refine apartRest.cons ?_
        intro next isNext
        cases rest with
        | nil =>
            cases isNext
        | cons second rest =>
            by_cases returns : second = '\r'
            · subst returns
              have same : next = '&' := by
                simpa [spelled_cons, Place.spelling, Place.reference?] using isNext.symm
              rw [same]
              exact fun both => absurd both.2 (by decide)
            · have same : next = second := by
                simpa [spelled_cons, Place.spelling, Place.reference?, returns] using isNext.symm
              rw [same]
              exact apart.rel

end SamlGate.Canonical
