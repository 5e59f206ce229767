import SamlGate.Proofs.Text.Mark
import SamlGate.Proofs.Xml.CharacterData
import SamlGate.Proofs.Xml.Names
import SamlGate.Xml.Document
import SamlGate.Xml.Markup

/-!
What holds of every piece of markup that is read.

Names are valid, values and texts have allowed characters only, a comment does not contain its end, and
neither do the data of a processing instruction.
-/

namespace SamlGate.Xml

structure CommentText (text : List Char) : Prop where
  permitted : Permitted text
  apart : Text.Apart '-' '-' text
  ending : text.getLast? ≠ some '-'

structure InstructionParts (target value : List Char) : Prop where
  begins : beginsName target = true
  consists : ∀ character ∈ target, isNamePart character = true
  permitted : Permitted value
  apart : Text.Apart '?' '>' value
  start : ∀ character ∈ value.head?, isBlank character = false

def Misc.Valid : Misc → Prop
  | .comment text => CommentText text.toList
  | .instruction target value => InstructionParts target.toList value.toList

def Leaf.Valid : Leaf → Prop
  | .text characters => Permitted characters.toList
  | .misc item => item.Valid

structure WrittenAttribute.Valid (written : WrittenAttribute) : Prop where
  name : written.name.Valid
  value : Permitted written.value.toList

/-- The names of start tags only are looked at: an end tag repeats one. -/
def Markup.Valid : Markup → Prop
  | .opening name attributes _ => name.Valid ∧ ∀ given ∈ attributes, given.Valid
  | .closing _ => True
  | .run written => Permitted written
  | .verbatim written => Permitted written
  | .comment text => CommentText text
  | .instruction target value => InstructionParts target value

namespace Markup

/-! ### Start tags -/

theorem attribute?_eq_some {text rest : List Char} {name : QName} {value : List Char}
    (isRead : attribute? text = some ((name, value), rest)) :
    ∃ afterName quoted, QName.read? text = some (name, afterName) ∧
      Text.after? ['='] (afterName.dropWhile isBlank) = some quoted ∧
      ∃ quote inside, quoted.dropWhile isBlank = quote :: inside ∧ (quote = '"' ∨ quote = '\'') ∧
        inside = value ++ quote :: rest ∧ (∀ character ∈ value, character ≠ quote ∧ character ≠ '<') ∧
        Permitted value := by
  unfold attribute? at isRead
  obtain ⟨⟨foundName, afterName⟩, atName, afterReading⟩ := Option.bind_eq_some_iff.mp isRead
  obtain ⟨quoted, atMark, afterMark⟩ := Option.bind_eq_some_iff.mp afterReading
  split at afterMark
  · cases afterMark
  · rename_i quote inside opened
    split at afterMark
    · rename_i isQuote
      simp only at afterMark
      split at afterMark
      · cases afterMark
      · rename_i close back dropped
        split at afterMark
        · rename_i checked
          obtain ⟨closes, allowed⟩ := checked
          subst closes
          cases afterMark
          refine ⟨afterName, quoted, atName, atMark, close, inside, opened, isQuote, ?_, ?_, ?_⟩
          · rw [← dropped]
            exact List.takeWhile_append_dropWhile.symm
          · intro character member
            simpa using List.mem_takeWhile_imp member
          · exact permitted_iff_all.mpr allowed
        · cases afterMark
    · cases afterMark

private theorem valid_of_attributesFrom {fuel : Nat} {before attributes : List WrittenAttribute}
    {text rest : List Char} {closed : Bool} (valid : ∀ given ∈ before, given.Valid)
    (isRead : attributesFrom fuel before text = some (attributes, closed, rest)) :
    ∀ given ∈ attributes, given.Valid := by
  induction fuel generalizing before text with
  | zero =>
      cases isRead
  | succ fuel ih =>
      unfold attributesFrom at isRead
      split at isRead
      · cases isRead
        simpa using valid
      · obtain ⟨_, _, same⟩ := Option.map_eq_some_iff.mp isRead
        cases same
        simpa using valid
      · split at isRead
        · split at isRead
          · cases isRead
          · rename_i name written rest' atAttribute
            split at isRead
            · cases isRead
            · rename_i value isValue
              obtain ⟨_, _, atName, _, _, _, _, _, _, _, permitted⟩ := attribute?_eq_some atAttribute
              refine ih (List.forall_mem_cons.mpr ⟨⟨?_, ?_⟩, valid⟩) isRead
              · exact QName.valid_of_read? atName
              · rw [String.toList_ofList]
                exact permitted_of_attributeValue? permitted isValue
        · cases isRead

private theorem valid_of_opening? {text rest : List Char} {piece : Markup}
    (isRead : opening? text = some (piece, rest)) : piece.Valid := by
  unfold opening? at isRead
  obtain ⟨⟨name, afterName⟩, atName, afterReading⟩ := Option.bind_eq_some_iff.mp isRead
  obtain ⟨⟨attributes, closed, back⟩, atAttributes, same⟩ := Option.bind_eq_some_iff.mp afterReading
  cases same
  exact ⟨QName.valid_of_read? atName, valid_of_attributesFrom (by simp) atAttributes⟩

/-! ### Other pieces -/

private theorem valid_of_closing? {text rest : List Char} {piece : Markup}
    (isRead : closing? text = some (piece, rest)) : piece.Valid := by
  unfold closing? at isRead
  obtain ⟨_, _, afterName⟩ := Option.bind_eq_some_iff.mp isRead
  obtain ⟨_, _, same⟩ := Option.bind_eq_some_iff.mp afterName
  cases same
  trivial

private theorem valid_of_comment? {text rest : List Char} {piece : Markup}
    (isRead : comment? text = some (piece, rest)) : piece.Valid := by
  unfold comment? at isRead
  obtain ⟨⟨content, back⟩, _, checked⟩ := Option.bind_eq_some_iff.mp isRead
  simp only at checked
  split at checked
  · rename_i passes
    cases checked
    simp only [Bool.and_eq_true, Bool.not_eq_true', decide_eq_true_eq] at passes
    obtain ⟨⟨allowed, single⟩, ending⟩ := passes
    exact ⟨permitted_iff_all.mpr allowed, Text.apart_of_occurs_eq_false single, ending⟩
  · cases checked

private theorem valid_of_verbatim? {text rest : List Char} {piece : Markup}
    (isRead : verbatim? text = some (piece, rest)) : piece.Valid := by
  unfold verbatim? at isRead
  obtain ⟨⟨content, back⟩, _, checked⟩ := Option.bind_eq_some_iff.mp isRead
  simp only at checked
  split at checked
  · rename_i allowed
    cases checked
    exact permitted_iff_all.mpr allowed
  · cases checked

private theorem beginsName_takeWhile {text : List Char} (begins : beginsName text = true) :
    beginsName (text.takeWhile isNamePart) = true := by
  obtain ⟨first, rest, same, starts⟩ := beginsName_iff.mp begins
  subst same
  rw [List.takeWhile_cons_of_pos (by simp [isNamePart, starts])]
  exact starts

/-- A processing instruction is read up to its end mark; the blanks after its target are dropped. -/
theorem instruction_parts {text value rest : List Char} (begins : beginsName text = true)
    (split : Text.upTo? ['?', '>'] ((text.dropWhile isNamePart).dropWhile isBlank) = some (value, rest))
    (allowed : value.all isAllowed = true) :
    InstructionParts (text.takeWhile isNamePart) value := by
  obtain ⟨same, apart⟩ := Text.apart_of_upTo?_eq_some split
  refine ⟨beginsName_takeWhile begins, fun _ member => List.mem_takeWhile_imp member,
    permitted_iff_all.mpr allowed, apart, ?_⟩
  have dropped := List.head?_dropWhile_not isBlank (text.dropWhile isNamePart)
  intro character atHead
  rw [same] at dropped
  cases value with
  | nil =>
      cases atHead
  | cons first value =>
      cases atHead
      simpa using dropped

private theorem valid_of_instruction? {text rest : List Char} {piece : Markup}
    (isRead : instruction? text = some (piece, rest)) : piece.Valid := by
  unfold instruction? at isRead
  split at isRead
  · cases isRead
  · split at isRead
    · rename_i begins
      obtain ⟨⟨value, back⟩, split, checked⟩ := Option.bind_eq_some_iff.mp isRead
      simp only at checked
      split at checked
      · rename_i allowed
        cases checked
        exact instruction_parts begins split allowed
      · cases checked
    · cases isRead

private theorem valid_of_run? {text rest : List Char} {piece : Markup}
    (isRead : run? text = some (piece, rest)) : piece.Valid := by
  unfold run? at isRead
  simp only at isRead
  split at isRead
  · rename_i checked
    cases isRead
    rw [Bool.and_eq_true] at checked
    exact permitted_iff_all.mpr checked.1
  · cases isRead

theorem valid_of_read? {text rest : List Char} {piece : Markup}
    (isRead : read? text = some (piece, rest)) : piece.Valid := by
  unfold read? at isRead
  split at isRead
  · split at isRead
    · exact valid_of_comment? isRead
    · split at isRead
      · exact valid_of_verbatim? isRead
      · split at isRead
        · exact valid_of_instruction? isRead
        · split at isRead
          · exact valid_of_closing? isRead
          · exact valid_of_opening? isRead
  · exact valid_of_run? isRead

private theorem valid_of_piecesFrom {fuel : Nat} {before pieces : List Markup} {text : List Char}
    (valid : ∀ piece ∈ before, piece.Valid) (isRead : piecesFrom fuel before text = some pieces) :
    ∀ piece ∈ pieces, piece.Valid := by
  induction fuel generalizing before text with
  | zero =>
      cases text with
      | nil =>
          cases isRead
          simpa using valid
      | cons first text =>
          cases isRead
  | succ fuel ih =>
      cases text with
      | nil =>
          cases isRead
          simpa using valid
      | cons first text =>
          unfold piecesFrom at isRead
          split at isRead
          · cases isRead
          · rename_i piece rest atPiece
            exact ih (List.forall_mem_cons.mpr ⟨valid_of_read? atPiece, valid⟩) isRead

theorem valid_of_readAll? {text : List Char} {pieces : List Markup}
    (isRead : readAll? text = some pieces) : ∀ piece ∈ pieces, piece.Valid :=
  valid_of_piecesFrom (by simp) isRead

end Markup

end SamlGate.Xml
