import SamlGate.Canonical.Serialization
import SamlGate.Proofs.Canonical.Escape

/-!
Written pieces are read as they were.

Each piece of canonical text is read off as the markup that it was written for, whatever follows. Reading
markup refuses one spelling that canonical text can have, an instruction that looks like an XML declaration,
so `Markup.scan?` is used, which reads that as well and otherwise reads the same.
-/

namespace SamlGate.Xml

open Canonical

namespace Markup

/-- Reads a processing instruction after its opening mark, whatever its target. -/
def scanInstruction? (text : List Char) : Option (Markup × List Char) :=
  if beginsName text then do
    let (value, rest) ← Text.upTo? ['?', '>'] ((text.dropWhile isNamePart).dropWhile isBlank)
    if value.all isAllowed then pure (.instruction (text.takeWhile isNamePart) value, rest) else none
  else none

/-- Reads one piece of markup off the front of a text; any name may be the target of an instruction. -/
def scan? (text : List Char) : Option (Markup × List Char) :=
  match Text.after? ['<', '?'] text with
  | some rest => scanInstruction? rest
  | none => read? text

theorem scan?_of_read? {text rest : List Char} {piece : Markup}
    (isRead : read? text = some (piece, rest)) : scan? text = some (piece, rest) := by
  unfold scan?
  split
  · rename_i inner begins
    have same : text = '<' :: '?' :: inner := Text.after?_eq_some_iff.mp begins
    subst same
    have isInstruction : instruction? inner = some (piece, rest) := isRead
    unfold instruction? at isInstruction
    split at isInstruction
    · cases isInstruction
    · exact isInstruction
  · exact isRead

/-! ### Comments, instructions and end tags -/

theorem scan?_comment {text rest : List Char} (valid : CommentText text) :
    scan? ('<' :: '!' :: '-' :: '-' :: (text ++ '-' :: '-' :: '>' :: rest)) =
      some (.comment text, rest) := by
  have isRead : comment? (text ++ '-' :: '-' :: '>' :: rest) = some (.comment text, rest) := by
    unfold comment?
    rw [Text.upTo?_append_of_apart_doubled valid.apart valid.ending]
    have passes : (text.all isAllowed && !Text.occurs ['-', '-'] text && decide (text.getLast? ≠ some '-')) =
        true := by
      rw [permitted_iff_all.mp valid.permitted, Text.occurs_eq_false_of_apart valid.apart]
      simpa using valid.ending
    exact if_pos passes
  exact scan?_of_read? isRead

theorem scan?_closing {name : QName} {rest : List Char} (valid : name.Valid) :
    scan? ('<' :: '/' :: (name.written.toList ++ '>' :: rest)) = some (.closing name, rest) := by
  have isRead : closing? (name.written.toList ++ '>' :: rest) = some (.closing name, rest) := by
    unfold closing?
    rw [QName.read?_written valid (by simp; decide)]
    simp [isBlank, Text.after?]
  exact scan?_of_read? isRead

theorem scan?_instruction {target value rest : List Char} (valid : InstructionParts target value) :
    scan? ('<' :: '?' :: (target ++ ((if value = [] then [] else ' ' :: value) ++ '?' :: '>' :: rest))) =
      some (.instruction target value, rest) := by
  obtain ⟨next, further, parted, endsTarget, dropped⟩ :
      ∃ next further, (if value = [] then [] else ' ' :: value) ++ '?' :: '>' :: rest = next :: further ∧
        isNamePart next = false ∧ (next :: further).dropWhile isBlank = value ++ '?' :: '>' :: rest := by
    cases value with
    | nil =>
        exact ⟨'?', '>' :: rest, rfl, by decide, rfl⟩
    | cons first value =>
        refine ⟨' ', first :: value ++ '?' :: '>' :: rest, rfl, by decide, ?_⟩
        rw [List.dropWhile_cons_of_pos (by decide), List.cons_append, List.dropWhile_cons_of_neg]
        simp [valid.start first rfl]
  have begins : beginsName (target ++ next :: further) = true := by
    obtain ⟨first, target', same, starts⟩ := beginsName_iff.mp valid.begins
    rw [same]
    exact starts
  have taken : (target ++ next :: further).takeWhile isNamePart = target := by
    rw [List.takeWhile_append_of_pos valid.consists, List.takeWhile_cons_of_neg (by simp [endsTarget]),
      List.append_nil]
  have left : (target ++ next :: further).dropWhile isNamePart = next :: further := by
    rw [List.dropWhile_append_of_pos valid.consists, List.dropWhile_cons_of_neg (by simp [endsTarget])]
  rw [parted]
  change scanInstruction? (target ++ next :: further) = _
  unfold scanInstruction?
  rw [if_pos begins, taken, left, dropped, Text.upTo?_append_of_apart (by decide) valid.apart]
  exact if_pos (permitted_iff_all.mp valid.permitted)

/-! ### Start tags -/

def attributeSpelling (written : WrittenAttribute) : List Char :=
  ' ' :: (written.name.written.toList ++
    '=' :: '"' :: (spelled .attributeValue written.value.toList ++ ['"']))

private theorem isBlank_eq_false_of_isNameStart {character : Char} (starts : isNameStart character = true) :
    isBlank character = false := by
  cases blank : isBlank character with
  | false =>
      rfl
  | true =>
      simp only [isBlank, Bool.or_eq_true, decide_eq_true_eq] at blank
      rcases blank with ((rfl | rfl) | rfl) | rfl
      all_goals
        exact absurd starts (by decide)

private theorem attribute?_spelling {written : WrittenAttribute} {rest : List Char}
    (valid : written.Valid) :
    attribute? (written.name.written.toList ++
        '=' :: '"' :: (spelled .attributeValue written.value.toList ++ '"' :: rest)) =
      some ((written.name, spelled .attributeValue written.value.toList), rest) := by
  have inside : ∀ character ∈ spelled .attributeValue written.value.toList,
      (character ≠ '"' && character ≠ '<') = true := by
    intro character member
    have notQuote : character ≠ '"' := by
      rintro rfl
      exact not_mem_spelled (by decide) (by decide) _ member
    have notOpening : character ≠ '<' := by
      rintro rfl
      exact not_mem_spelled (by decide) (by decide) _ member
    simp [notQuote, notOpening]
  have taken : (spelled .attributeValue written.value.toList ++ '"' :: rest).takeWhile
      (fun character => character ≠ '"' && character ≠ '<') = spelled .attributeValue written.value.toList := by
    rw [List.takeWhile_append_of_pos inside, List.takeWhile_cons_of_neg (by simp), List.append_nil]
  have left : (spelled .attributeValue written.value.toList ++ '"' :: rest).dropWhile
      (fun character => character ≠ '"' && character ≠ '<') = '"' :: rest := by
    rw [List.dropWhile_append_of_pos inside, List.dropWhile_cons_of_neg (by simp)]
  have allowed : (spelled .attributeValue written.value.toList).all isAllowed = true :=
    permitted_iff_all.mp (permitted_spelled valid.value)
  unfold attribute?
  rw [QName.read?_written valid.name (by simp; decide)]
  refine Option.bind_eq_some_iff.mpr ⟨(written.name, _), rfl, ?_⟩
  refine Option.bind_eq_some_iff.mpr ⟨'"' :: _, rfl, ?_⟩
  rw [List.dropWhile_cons_of_neg (by decide)]
  simp only [true_or, if_true, taken, left]
  exact if_pos ⟨trivial, allowed⟩

private theorem attributesFrom_spelling {attributes before : List WrittenAttribute} {fuel : Nat}
    {rest : List Char}
    (valid : ∀ written ∈ attributes, written.Valid) (enough : attributes.length < fuel) :
    attributesFrom fuel before (attributes.flatMap attributeSpelling ++ '>' :: rest) =
      some (before.reverse ++ attributes, false, rest) := by
  induction attributes generalizing before fuel with
  | nil =>
      obtain ⟨further, rfl⟩ := Nat.exists_eq_succ_of_ne_zero (Nat.ne_of_gt enough)
      simp [attributesFrom, isBlank]
  | cons written attributes ih =>
      obtain ⟨further, rfl⟩ := Nat.exists_eq_succ_of_ne_zero (Nat.ne_of_gt (Nat.zero_lt_of_lt enough))
      obtain ⟨here, later⟩ := List.forall_mem_cons.mp valid
      obtain ⟨first, name, spells, starts⟩ := exists_written_eq_cons here.name
      have step : (List.flatMap attributeSpelling (written :: attributes) ++ '>' :: rest) =
          ' ' :: (written.name.written.toList ++ '=' :: '"' ::
            (spelled .attributeValue written.value.toList ++
              '"' :: (attributes.flatMap attributeSpelling ++ '>' :: rest))) := by
        simp [attributeSpelling]
      have dropped : (' ' :: (written.name.written.toList ++ '=' :: '"' ::
            (spelled .attributeValue written.value.toList ++
              '"' :: (attributes.flatMap attributeSpelling ++ '>' :: rest)))).dropWhile isBlank =
          written.name.written.toList ++ '=' :: '"' ::
            (spelled .attributeValue written.value.toList ++
              '"' :: (attributes.flatMap attributeSpelling ++ '>' :: rest)) := by
        rw [List.dropWhile_cons_of_pos (by decide), spells, List.cons_append,
          List.dropWhile_cons_of_neg]
        simp [isBlank_eq_false_of_isNameStart starts]
      rw [step]
      unfold attributesFrom
      rw [dropped]
      split
      · rename_i after isEnd
        rw [spells] at isEnd
        cases isEnd
        exact absurd starts (by decide)
      · rename_i after isEnd
        rw [spells] at isEnd
        cases isEnd
        exact absurd starts (by decide)
      · rw [if_pos (show (Option.map isBlank (' ' :: _).head?).getD false = true from rfl),
          attribute?_spelling here]
        simp only [attributeValue?_spelled]
        rw [ih later (by simpa using enough)]
        simp

def openingSpelling (name : QName) (attributes : List WrittenAttribute) : List Char :=
  '<' :: (name.written.toList ++ (attributes.flatMap attributeSpelling ++ ['>']))

private theorem length_le_flatMap_spelling (attributes : List WrittenAttribute) :
    attributes.length ≤ (attributes.flatMap attributeSpelling).length := by
  induction attributes with
  | nil =>
      exact Nat.le_refl _
  | cons written attributes ih =>
      rw [List.flatMap_cons, List.length_append, List.length_cons, attributeSpelling, List.length_cons]
      omega

private theorem opening?_spelling {name : QName} {attributes : List WrittenAttribute} {rest : List Char}
    (nameValid : name.Valid) (valid : ∀ written ∈ attributes, written.Valid) :
    opening? (name.written.toList ++ (attributes.flatMap attributeSpelling ++ '>' :: rest)) =
      some (.opening name attributes false, rest) := by
  have ends : ∀ character ∈ (attributes.flatMap attributeSpelling ++ '>' :: rest).head?,
      isNamePart character = false := by
    cases attributes with
    | nil =>
        simp
        decide
    | cons written attributes =>
        simp [attributeSpelling]
        decide
  have enough : attributes.length <
      (attributes.flatMap attributeSpelling ++ '>' :: rest).length + 1 := by
    have shorter := length_le_flatMap_spelling attributes
    rw [List.length_append]
    omega
  unfold opening?
  rw [QName.read?_written nameValid ends]
  refine Option.bind_eq_some_iff.mpr ⟨_, rfl, ?_⟩
  refine Option.bind_eq_some_iff.mpr ⟨(attributes, false, rest), ?_, rfl⟩
  exact attributesFrom_spelling valid enough

theorem scan?_opening {name : QName} {attributes : List WrittenAttribute} {rest : List Char}
    (nameValid : name.Valid) (valid : ∀ written ∈ attributes, written.Valid) :
    scan? (openingSpelling name attributes ++ rest) = some (.opening name attributes false, rest) := by
  have isOpening : opening? (name.written.toList ++ (attributes.flatMap attributeSpelling ++ '>' :: rest)) =
      some (.opening name attributes false, rest) :=
    opening?_spelling nameValid valid
  obtain ⟨first, further, spells, starts⟩ := exists_written_eq_cons nameValid
  have notMark : '!' ≠ first ∧ '?' ≠ first ∧ '/' ≠ first := by
    refine ⟨?_, ?_, ?_⟩
    · rintro rfl
      exact absurd starts (by decide)
    · rintro rfl
      exact absurd starts (by decide)
    · rintro rfl
      exact absurd starts (by decide)
  have spelling : openingSpelling name attributes ++ rest =
      '<' :: (name.written.toList ++ (attributes.flatMap attributeSpelling ++ '>' :: rest)) := by
    simp [openingSpelling]
  refine scan?_of_read? ?_
  rw [spelling, read?]
  rw [spells] at isOpening ⊢
  simpa [Text.after?, notMark] using isOpening

/-! ### Character data -/

theorem scan?_run {characters rest : List Char} (nonempty : characters ≠ [])
    (permitted : Permitted characters) (ends : ∀ character ∈ rest.head?, character = '<') :
    scan? (spelled .text characters ++ rest) = some (.run (spelled .text characters), rest) := by
  obtain ⟨first, further, spells⟩ := List.exists_cons_of_ne_nil (spelled_ne_nil nonempty)
  have noMarkup : '<' ∉ spelled .text characters :=
    not_mem_spelled (by decide) (by decide) characters
  have notMark : first ≠ '<' := by
    rintro rfl
    exact noMarkup (spells ▸ List.mem_cons_self)
  have data : ∀ character ∈ spelled .text characters, decide (character ≠ '<') = true := by
    intro character member
    rw [decide_eq_true_eq]
    rintro rfl
    exact noMarkup member
  have noneTaken : rest.takeWhile (fun character => character ≠ '<') = [] ∧
      rest.dropWhile (fun character => character ≠ '<') = rest := by
    cases rest with
    | nil =>
        exact ⟨rfl, rfl⟩
    | cons next rest =>
        have same : next = '<' := ends next rfl
        subst same
        exact ⟨List.takeWhile_cons_of_neg (by simp), List.dropWhile_cons_of_neg (by simp)⟩
  have passes : ((spelled .text characters).all isAllowed &&
      !Text.occurs [']', ']', '>'] (spelled .text characters)) = true := by
    have noEnd : Text.occurs [']', ']', '>'] (spelled .text characters) = false := by
      have noClosing : '>' ∉ spelled .text characters :=
        not_mem_spelled (by decide) (by decide) characters
      exact Text.occurs_eq_false_of_not_mem (by decide) noClosing
    rw [permitted_iff_all.mp (permitted_spelled permitted), noEnd]
    rfl
  have isRun : run? (spelled .text characters ++ rest) = some (.run (spelled .text characters), rest) := by
    unfold run?
    rw [List.takeWhile_append_of_pos data, List.dropWhile_append_of_pos data, noneTaken.1, noneTaken.2,
      List.append_nil]
    exact if_pos passes
  refine scan?_of_read? ?_
  rw [← isRun, spells, List.cons_append]
  unfold read?
  split
  · rename_i inner same
    exact absurd (List.cons.inj same).1 notMark
  · rfl

end Markup

end SamlGate.Xml
