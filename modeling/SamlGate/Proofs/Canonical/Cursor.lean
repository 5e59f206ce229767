import SamlGate.Proofs.Canonical.Pieces
import SamlGate.Proofs.Xml.Content
import SamlGate.Xml.Assembly

/-!
Reading canonical text while it is written.

A cursor is an assembly with the character data that has been written since the last markup: reading joins
such data into one text, so it is added only when markup follows. `Reads before written after` says that
whatever is read from the second cursor on, it is read from the first one when the text written is put in
front.
-/

namespace SamlGate.Canonical

open Xml Markup

/-- The pieces of a text, read one by one, take the first assembly to the last. -/
inductive Absorbs : Assembly → List Char → Assembly → Prop where
  | done (assembly : Assembly) : Absorbs assembly [] assembly
  | step {assembly next last : Assembly} {text rest : List Char} {piece : Markup} (nonempty : text ≠ [])
      (read : scan? text = some (piece, rest)) (added : assembly.add? piece = some next)
      (remaining : Absorbs next rest last) : Absorbs assembly text last

theorem Absorbs.deterministic {assembly last other : Assembly} {text : List Char}
    (absorbs : Absorbs assembly text last) (absorbsToo : Absorbs assembly text other) : last = other := by
  induction absorbs with
  | done assembly =>
      cases absorbsToo with
      | done _ =>
          rfl
      | step nonempty _ _ _ =>
          exact absurd rfl nonempty
  | step nonempty read added _ ih =>
      cases absorbsToo with
      | done _ =>
          exact absurd rfl nonempty
      | step _ readToo addedToo remaining =>
          rw [read] at readToo
          cases readToo
          rw [added] at addedToo
          cases addedToo
          exact ih remaining

private theorem exists_absorbs_of_piecesFrom {fuel : Nat} {before pieces : List Markup} {text : List Char}
    (isRead : piecesFrom fuel before text = some pieces) :
    ∃ further, pieces = before.reverse ++ further ∧
      ∀ assembly last, further.foldlM Assembly.add? assembly = some last →
        Absorbs assembly text last := by
  induction fuel generalizing before text with
  | zero =>
      cases text with
      | nil =>
          cases isRead
          refine ⟨[], by simp, ?_⟩
          intro assembly last added
          cases added
          exact .done assembly
      | cons first text =>
          cases isRead
  | succ fuel ih =>
      cases text with
      | nil =>
          cases isRead
          refine ⟨[], by simp, ?_⟩
          intro assembly last added
          cases added
          exact .done assembly
      | cons first text =>
          unfold piecesFrom at isRead
          split at isRead
          · cases isRead
          · rename_i piece rest atPiece
            obtain ⟨further, same, absorbs⟩ := ih isRead
            refine ⟨piece :: further, by simp [same], ?_⟩
            intro assembly last added
            rw [List.foldlM_cons] at added
            obtain ⟨next, here, later⟩ := Option.bind_eq_some_iff.mp added
            exact .step (List.cons_ne_nil _ _) (scan?_of_read? atPiece) here (absorbs next last later)

theorem absorbs_of_readAll? {text : List Char} {pieces : List Markup} {assembly last : Assembly}
    (isRead : readAll? text = some pieces)
    (added : pieces.foldlM Assembly.add? assembly = some last) : Absorbs assembly text last := by
  obtain ⟨further, same, absorbs⟩ := exists_absorbs_of_piecesFrom isRead
  rw [List.reverse_nil, List.nil_append] at same
  exact absorbs assembly last (same ▸ added)

/-! ### Cursors -/

structure Cursor where
  assembly : Assembly
  pending : List Char

def Reads (before : Cursor) (written : List Char) (after : Cursor) : Prop :=
  ∀ rest last, Absorbs after.assembly (spelled .text after.pending ++ rest) last →
    Absorbs before.assembly (spelled .text before.pending ++ (written ++ rest)) last

theorem Reads.refl (cursor : Cursor) : Reads cursor [] cursor :=
  fun _ _ absorbs => absorbs

theorem Reads.trans {first second third : Cursor} {front back : List Char}
    (reads : Reads first front second) (readsOn : Reads second back third) :
    Reads first (front ++ back) third := by
  intro rest last absorbs
  rw [List.append_assoc]
  exact reads _ last (readsOn rest last absorbs)

theorem reads_text (assembly : Assembly) (pending characters : List Char) :
    Reads ⟨assembly, pending⟩ (spelled .text characters) ⟨assembly, pending ++ characters⟩ := by
  intro rest last absorbs
  simp only [spelled_append, List.append_assoc] at absorbs
  exact absorbs

def flush? (assembly : Assembly) (pending : List Char) : Option Assembly :=
  if pending = [] then some assembly else assembly.add? (.run (spelled .text pending))

theorem absorbs_flush {assembly flushed last : Assembly} {pending rest : List Char}
    (permitted : Permitted pending) (flushes : flush? assembly pending = some flushed)
    (ends : ∀ character ∈ rest.head?, character = '<') (absorbs : Absorbs flushed rest last) :
    Absorbs assembly (spelled .text pending ++ rest) last := by
  unfold flush? at flushes
  split at flushes
  · rename_i nonePending
    cases flushes
    rw [nonePending]
    exact absorbs
  · rename_i nonempty
    refine .step ?_ (scan?_run nonempty permitted ends) flushes absorbs
    exact List.append_ne_nil_of_left_ne_nil (spelled_ne_nil nonempty) _

theorem reads_piece {assembly flushed next : Assembly} {pending written : List Char} {piece : Markup}
    (permitted : Permitted pending) (flushes : flush? assembly pending = some flushed)
    (isMarkup : ∃ further, written = '<' :: further)
    (read : ∀ rest, scan? (written ++ rest) = some (piece, rest)) (added : flushed.add? piece = some next) :
    Reads ⟨assembly, pending⟩ written ⟨next, []⟩ := by
  obtain ⟨further, rfl⟩ := isMarkup
  intro rest last absorbs
  refine absorbs_flush permitted flushes ?_ ?_
  · rintro character ⟨⟩
    rfl
  · exact .step (List.cons_ne_nil _ _) (read rest) added absorbs

/-! ### Comments and instructions -/

/-- A comment or an instruction as it is read again: the data of an instruction keep what is escaped. -/
def reread : Misc → Misc
  | .comment text => .comment text
  | .instruction target value => .instruction target (String.ofList (escaped .instruction value))

theorem reads_misc {assembly flushed : Assembly} {pending : List Char} {item : Misc} (valid : item.Valid)
    (permitted : Permitted pending) (flushes : flush? assembly pending = some flushed) :
    Reads ⟨assembly, pending⟩ (writtenMisc item) ⟨flushed.addMisc (reread item), []⟩ := by
  cases item with
  | comment text =>
      have spelling : writtenMisc (.comment text) =
          '<' :: '!' :: '-' :: '-' :: (text.toList ++ ['-', '-', '>']) := by
        simp [writtenMisc]
      have read (rest : List Char) :
          scan? (writtenMisc (.comment text) ++ rest) = some (.comment text.toList, rest) := by
        rw [spelling]
        simpa using scan?_comment valid
      refine reads_piece permitted flushes ⟨_, spelling⟩ read ?_
      simp [Assembly.add?, reread]
  | instruction target value =>
      have valueValid : InstructionParts target.toList (escaped .instruction value) :=
        ⟨valid.begins, valid.consists, permitted_spelled valid.permitted,
          apart_spelled_instruction valid.apart, by
            rw [escaped_eq_spelled, head?_spelled_instruction valid.start]
            exact valid.start⟩
      have spelling : writtenMisc (.instruction target value) =
          '<' :: '?' :: (target.toList ++
            ((if escaped .instruction value = [] then [] else ' ' :: escaped .instruction value) ++
              ['?', '>'])) := by
        by_cases noData : value = ""
        · subst noData
          simp [writtenMisc, escaped]
        · have someData : escaped .instruction value ≠ [] := by
            rw [escaped_eq_spelled]
            refine spelled_ne_nil ?_
            simpa using noData
          simp [writtenMisc, noData, someData]
      have read (rest : List Char) : scan? (writtenMisc (.instruction target value) ++ rest) =
          some (.instruction target.toList (escaped .instruction value), rest) := by
        rw [spelling]
        simpa using scan?_instruction valueValid
      refine reads_piece permitted flushes ⟨_, spelling⟩ read ?_
      simp [Assembly.add?, reread]

end SamlGate.Canonical
