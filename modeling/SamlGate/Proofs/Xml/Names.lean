import Mathlib.Data.List.TakeWhile
import SamlGate.Xml.Name

/-!
Names and their spelling.

Each part of a name that is read begins as a name and has no colon, so the spelling of the name is read as
the same name again.
-/

namespace SamlGate.Xml

/-- A part of a name: it begins as one, and all its characters may stand in one, the colon excepted. -/
structure IsPart (part : String) : Prop where
  begins : beginsName part.toList = true
  consists : ∀ character ∈ part.toList, isNamePart character = true
  plain : ':' ∉ part.toList

/-- Both parts are parts of a name; the first may be missing. -/
structure QName.Valid (name : QName) : Prop where
  front : name.nsPrefix = "" ∨ IsPart name.nsPrefix
  back : IsPart name.localName

theorem beginsName_iff {characters : List Char} :
    beginsName characters = true ↔ ∃ first rest, characters = first :: rest ∧ isNameStart first = true := by
  cases characters with
  | nil =>
      simp [beginsName]
  | cons first rest =>
      simp [beginsName]

private theorem isPart_ofList {characters : List Char} (begins : beginsName characters = true)
    (consists : ∀ character ∈ characters, isNamePart character = true) (plain : ':' ∉ characters) :
    IsPart (String.ofList characters) := by
  refine ⟨?_, ?_, ?_⟩
  · rwa [String.toList_ofList]
  · rwa [String.toList_ofList]
  · rwa [String.toList_ofList]

/-! ### Reading -/

private theorem QName.valid_of_ofRun? {run : List Char} {name : QName}
    (consists : ∀ character ∈ run, isNamePart character = true) (spells : QName.ofRun? run = some name) :
    name.Valid := by
  have frontConsists : ∀ character ∈ run.takeWhile (fun character => character ≠ ':'),
      isNamePart character = true :=
    fun character member => consists character (List.takeWhile_subset _ member)
  have frontPlain : ':' ∉ run.takeWhile (fun character => character ≠ ':') := by
    intro member
    simpa using List.mem_takeWhile_imp member
  have backConsists : ∀ character ∈ run.dropWhile (fun character => character ≠ ':'),
      isNamePart character = true :=
    fun character member => consists character (List.dropWhile_subset _ member)
  unfold QName.ofRun? at spells
  simp only at spells
  split at spells
  · split at spells
    · rename_i begins
      cases spells
      exact ⟨Or.inl rfl, isPart_ofList begins frontConsists frontPlain⟩
    · cases spells
  · rename_i colon back dropped
    rw [dropped] at backConsists
    split at spells
    · rename_i parts
      cases spells
      simp only [Bool.and_eq_true, Bool.or_eq_true, Bool.not_eq_true', List.contains_eq_mem,
        decide_eq_false_iff_not] at parts
      obtain ⟨⟨frontBegins, backBegins⟩, backPlain⟩ := parts
      refine ⟨?_, isPart_ofList backBegins ?_ backPlain⟩
      · rcases frontBegins with noFront | begins
        · rw [List.isEmpty_iff.mp noFront]
          exact Or.inl rfl
        · exact Or.inr (isPart_ofList begins frontConsists frontPlain)
      · intro character member
        exact backConsists character (List.mem_cons_of_mem _ member)
    · cases spells

theorem QName.valid_of_read? {text rest : List Char} {name : QName}
    (isRead : QName.read? text = some (name, rest)) : name.Valid := by
  unfold QName.read? at isRead
  obtain ⟨found, spells, same⟩ := Option.map_eq_some_iff.mp isRead
  cases same
  exact QName.valid_of_ofRun? (fun _ member => List.mem_takeWhile_imp member) spells

/-! ### Reading again -/

private theorem isNamePart_of_mem_written {name : QName} (valid : name.Valid) :
    ∀ character ∈ name.written.toList, isNamePart character = true := by
  intro character member
  unfold QName.written at member
  split at member
  · exact valid.back.consists character member
  · rename_i prefixed
    have front := valid.front.resolve_left prefixed
    simp only [String.toList_append, List.mem_append] at member
    rcases member with (inFront | isColon) | inBack
    · exact front.consists character inFront
    · have same : character = ':' := by simpa using isColon
      rw [same]
      decide
    · exact valid.back.consists character inBack

theorem exists_written_eq_cons {name : QName} (valid : name.Valid) :
    ∃ first rest, name.written.toList = first :: rest ∧ isNameStart first = true := by
  unfold QName.written
  split
  · exact beginsName_iff.mp valid.back.begins
  · rename_i prefixed
    obtain ⟨first, rest, spelled, begins⟩ :=
      beginsName_iff.mp (valid.front.resolve_left prefixed).begins
    exact ⟨first, _, by rw [String.toList_append, String.toList_append, spelled]; rfl, begins⟩

private theorem ne_colon_of_not_mem {characters : List Char} (plain : ':' ∉ characters) :
    ∀ character ∈ characters, decide (character ≠ ':') = true := by
  intro character member
  rw [decide_eq_true_eq]
  rintro rfl
  exact plain member

private theorem QName.ofRun?_written {name : QName} (valid : name.Valid) :
    QName.ofRun? name.written.toList = some name := by
  obtain ⟨nsPrefix, localName⟩ := name
  have back := valid.back
  have frontCases := valid.front
  simp only at back frontCases
  unfold QName.written QName.ofRun?
  by_cases prefixed : nsPrefix = ""
  · subst prefixed
    simp only [if_true]
    have whole := ne_colon_of_not_mem back.plain
    have taken : localName.toList.takeWhile (fun character => character ≠ ':') = localName.toList :=
      List.takeWhile_eq_self_iff.mpr whole
    have dropped : localName.toList.dropWhile (fun character => character ≠ ':') = [] :=
      List.dropWhile_eq_nil_iff.mpr whole
    simp only [taken, dropped, back.begins, if_true, String.ofList_toList]
  · have front := frontCases.resolve_left prefixed
    have whole := ne_colon_of_not_mem front.plain
    have spelled : (nsPrefix ++ ":" ++ localName).toList = nsPrefix.toList ++ (':' :: localName.toList) := by
      simp
    have taken : (nsPrefix ++ ":" ++ localName).toList.takeWhile (fun character => character ≠ ':') =
        nsPrefix.toList := by
      rw [spelled, List.takeWhile_append_of_pos whole, List.takeWhile_cons_of_neg (by simp),
        List.append_nil]
    have dropped : (nsPrefix ++ ":" ++ localName).toList.dropWhile (fun character => character ≠ ':') =
        ':' :: localName.toList := by
      rw [spelled, List.dropWhile_append_of_pos whole, List.dropWhile_cons_of_neg (by simp)]
    rw [if_neg prefixed]
    simp only [taken, dropped]
    rw [if_pos]
    · simp
    · simp [front.begins, back.begins, back.plain]

/-- A name is read off its spelling up to the first character that may not stand in a name. -/
theorem QName.read?_written {name : QName} {rest : List Char} (valid : name.Valid)
    (ends : ∀ character ∈ rest.head?, isNamePart character = false) :
    QName.read? (name.written.toList ++ rest) = some (name, rest) := by
  have consists := isNamePart_of_mem_written valid
  have noneTaken : rest.takeWhile isNamePart = [] := by
    cases rest with
    | nil =>
        rfl
    | cons next rest =>
        exact List.takeWhile_cons_of_neg (by simp [ends next rfl])
  have noneDropped : rest.dropWhile isNamePart = rest := by
    cases rest with
    | nil =>
        rfl
    | cons next rest =>
        exact List.dropWhile_cons_of_neg (by simp [ends next rfl])
  unfold QName.read?
  rw [List.takeWhile_append_of_pos consists, List.dropWhile_append_of_pos consists, noneTaken,
    noneDropped, List.append_nil, QName.ofRun?_written valid]
  rfl

end SamlGate.Xml
