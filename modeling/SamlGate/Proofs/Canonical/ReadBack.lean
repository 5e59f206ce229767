import SamlGate.Proofs.Canonical.Document
import SamlGate.Proofs.Canonical.Prolog

/-!
What is absorbed is read as a document.

Reading a document refuses instructions that look like an XML declaration, and skips a declaration at its
front; else it takes the same pieces off as absorbing does. A document keeps all comments and instructions
that were met when it was put together. So if none of them is an instruction named `xml`, then the text that
was absorbed is read as the document.
-/

namespace SamlGate.Xml

def Misc.isNamedXml : Misc → Bool
  | .comment _ => false
  | .instruction target _ => target = "xml"

namespace Assembly

def miscs (assembly : Assembly) : List Misc :=
  assembly.opened.flatMap (fun opened => (Content.ofReversed opened.held).miscs)
    ++ (assembly.root.map (fun root => root.inner.miscs)).getD [] ++ assembly.before ++ assembly.after

private theorem miscs_add (opened : OpenElement) (item : Leaf ⊕ Element) :
    (Content.ofReversed (opened.add item).held).miscs =
      (Content.ofReversed opened.held).miscs ++
        match item with
        | .inl (.text _) => []
        | .inl (.misc item) => [item]
        | .inr element => element.inner.miscs :=
  gathered_miscs.add (fun _ _ => rfl) opened item

private theorem mem_miscs_addElement? {assembly next : Assembly} {element : Element} {item : Misc}
    (added : assembly.addElement? element = some next)
    (met : item ∈ assembly.miscs ∨ item ∈ element.inner.miscs) : item ∈ next.miscs := by
  unfold addElement? at added
  split at added
  · rename_i innermost outer same
    cases added
    simp only [miscs, same, List.flatMap_cons, miscs_add, List.mem_append] at met ⊢
    tauto
  · split at added
    · rename_i noneOpen noRoot
      cases added
      rw [Option.isNone_iff_eq_none] at noRoot
      simp only [miscs, noneOpen, noRoot, List.flatMap_nil, Option.map_some, Option.map_none,
        Option.getD_some, Option.getD_none, List.mem_append] at met ⊢
      tauto
    · cases added

private theorem miscs_addText? {assembly next : Assembly} {characters : List Char}
    (added : assembly.addText? characters = some next) : next.miscs = assembly.miscs := by
  unfold addText? at added
  split at added
  · rename_i innermost outer same
    cases added
    simp only [miscs, same, List.flatMap_cons, miscs_add, List.append_nil]
  · cases added

private theorem mem_miscs_addMisc {assembly : Assembly} {added item : Misc}
    (met : item ∈ assembly.miscs ∨ item = added) : item ∈ (assembly.addMisc added).miscs := by
  unfold addMisc
  split
  · rename_i innermost outer same
    simp only [miscs, same, List.flatMap_cons, miscs_add, List.mem_append, List.mem_singleton] at met ⊢
    tauto
  · split
    · simp only [miscs, List.mem_append, List.mem_cons] at met ⊢
      tauto
    · simp only [miscs, List.mem_append, List.mem_cons] at met ⊢
      tauto

/-- No step loses what was met, and an instruction is met. -/
theorem mem_miscs_add? {assembly next : Assembly} {piece : Markup} {item : Misc}
    (added : assembly.add? piece = some next)
    (met : item ∈ assembly.miscs ∨
      ∃ target value, piece = .instruction target value ∧
        item = .instruction (String.ofList target) (String.ofList value)) :
    item ∈ next.miscs := by
  cases piece with
  | opening name attributes closed =>
      have before := met.resolve_right (by simp)
      obtain ⟨tag, _, afterTag⟩ := Option.bind_eq_some_iff.mp added
      split at afterTag
      · exact mem_miscs_addElement? afterTag (.inl before)
      · cases afterTag
        exact before
  | closing name =>
      have before := met.resolve_right (by simp)
      simp only [add?] at added
      split at added
      · rename_i innermost outer same
        split at added
        · apply mem_miscs_addElement? added
          simp only [miscs, same, List.flatMap_cons, List.mem_append] at before ⊢
          tauto
        · cases added
      · cases added
  | run written =>
      have before := met.resolve_right (by simp)
      simp only [add?] at added
      split at added
      · split at added
        · cases added
          exact before
        · cases added
      · obtain ⟨characters, _, addsText⟩ := Option.bind_eq_some_iff.mp added
        rw [miscs_addText? addsText]
        exact before
  | verbatim written =>
      rw [miscs_addText? added]
      exact met.resolve_right (by simp)
  | comment text =>
      cases added
      exact mem_miscs_addMisc (.inl (met.resolve_right (by simp)))
  | instruction target value =>
      cases added
      apply mem_miscs_addMisc
      rcases met with before | ⟨_, _, same, isItem⟩
      · exact .inl before
      · cases same
        exact .inr isItem

private theorem mem_miscs_finish? {assembly : Assembly} {document : Document} {item : Misc}
    (finished : assembly.finish? = some document) (met : item ∈ assembly.miscs) : item ∈ document.miscs := by
  unfold finish? at finished
  split at finished
  · rename_i root noneOpen isRoot
    cases finished
    simp only [miscs, noneOpen, isRoot, List.flatMap_nil, Option.map_some, Option.getD_some,
      List.mem_append, Document.miscs, List.mem_reverse] at met ⊢
    tauto
  · cases finished

end Assembly

end SamlGate.Xml

namespace SamlGate.Canonical

open Xml Markup

/-! ### Each piece takes something off -/

private theorem suffix_of_after? {mark text rest : List Char} (found : Text.after? mark text = some rest) :
    rest <:+ text :=
  ⟨mark, (Text.after?_eq_some_iff.mp found).symm⟩

private theorem suffix_of_upTo? {mark text before rest : List Char}
    (found : Text.upTo? mark text = some (before, rest)) :
    rest <:+ text :=
  ⟨before ++ mark, (Text.upTo?_append found).symm⟩

private theorem LeftBehind.suffix {text left : List Char} (leaves : LeftBehind text left) :
    left <:+ text := by
  obtain ⟨consumed, same, _⟩ := leaves
  exact ⟨consumed, same.symm⟩

private theorem suffix_of_name? {text rest : List Char} {name : QName}
    (isRead : QName.read? text = some (name, rest)) :
    rest <:+ text := by
  unfold QName.read? at isRead
  obtain ⟨_, _, same⟩ := Option.map_eq_some_iff.mp isRead
  cases same
  exact List.dropWhile_suffix _

private theorem suffix_of_attributesFrom {fuel : Nat} {before attributes : List WrittenAttribute}
    {closed : Bool}
    {text rest : List Char} (isRead : attributesFrom fuel before text = some (attributes, closed, rest)) :
    rest <:+ text := by
  induction fuel generalizing before text with
  | zero =>
      cases isRead
  | succ fuel ih =>
      have blanks := text.dropWhile_suffix isBlank
      unfold attributesFrom at isRead
      split at isRead
      · rename_i atEnd
        cases isRead
        rw [atEnd] at blanks
        exact (List.suffix_cons _ _).trans blanks
      · rename_i back atEnd
        obtain ⟨left, isEnd, same⟩ := Option.map_eq_some_iff.mp isRead
        cases same
        rw [atEnd] at blanks
        exact (suffix_of_after? isEnd).trans ((List.suffix_cons _ _).trans blanks)
      · split at isRead
        · split at isRead
          · cases isRead
          · rename_i atAttribute
            split at isRead
            · cases isRead
            · exact (ih isRead).trans ((leftBehind_of_attribute? atAttribute).suffix.trans blanks)
        · cases isRead

section Pieces

variable {text rest : List Char} {piece : Markup}

private theorem suffix_of_opening? (isRead : opening? text = some (piece, rest)) : rest <:+ text := by
  unfold opening? at isRead
  obtain ⟨⟨name, left⟩, atName, afterName⟩ := Option.bind_eq_some_iff.mp isRead
  obtain ⟨⟨attributes, closed, further⟩, atAttributes, same⟩ := Option.bind_eq_some_iff.mp afterName
  cases same
  exact (suffix_of_attributesFrom atAttributes).trans (suffix_of_name? atName)

private theorem suffix_of_closing? (isRead : closing? text = some (piece, rest)) : rest <:+ text := by
  unfold closing? at isRead
  obtain ⟨⟨name, left⟩, atName, afterName⟩ := Option.bind_eq_some_iff.mp isRead
  obtain ⟨further, atEnd, same⟩ := Option.bind_eq_some_iff.mp afterName
  cases same
  exact (suffix_of_after? atEnd).trans ((List.dropWhile_suffix _).trans (suffix_of_name? atName))

private theorem suffix_of_comment? (isRead : comment? text = some (piece, rest)) : rest <:+ text := by
  unfold comment? at isRead
  obtain ⟨⟨content, left⟩, found, checked⟩ := Option.bind_eq_some_iff.mp isRead
  simp only at checked
  split at checked
  · cases checked
    exact suffix_of_upTo? found
  · cases checked

private theorem suffix_of_verbatim? (isRead : verbatim? text = some (piece, rest)) : rest <:+ text := by
  unfold verbatim? at isRead
  obtain ⟨⟨content, left⟩, found, checked⟩ := Option.bind_eq_some_iff.mp isRead
  simp only at checked
  split at checked
  · cases checked
    exact suffix_of_upTo? found
  · cases checked

private theorem suffix_of_instruction? (isRead : instruction? text = some (piece, rest)) :
    rest <:+ text := by
  unfold instruction? at isRead
  split at isRead
  · cases isRead
  · split at isRead
    · obtain ⟨⟨value, left⟩, found, checked⟩ := Option.bind_eq_some_iff.mp isRead
      simp only at checked
      split at checked
      · cases checked
        exact (suffix_of_upTo? found).trans ((List.dropWhile_suffix _).trans (List.dropWhile_suffix _))
      · cases checked
    · cases isRead

private theorem length_lt_of_run? {first : Char} (isData : first ≠ '<')
    (isRead : run? (first :: text) = some (piece, rest)) : rest.length < (first :: text).length := by
  unfold run? at isRead
  simp only at isRead
  split at isRead
  · cases isRead
    rw [List.dropWhile_cons_of_pos (by simpa using isData)]
    exact Nat.lt_succ_of_le (List.dropWhile_suffix _).length_le
  · cases isRead

private theorem length_lt_of_read? (nonempty : text ≠ []) (isRead : read? text = some (piece, rest)) :
    rest.length < text.length := by
  unfold read? at isRead
  split at isRead
  · rename_i inner
    have behind : rest <:+ inner := by
      split at isRead
      · rename_i begins
        exact (suffix_of_comment? isRead).trans (suffix_of_after? begins)
      · split at isRead
        · rename_i begins
          exact (suffix_of_verbatim? isRead).trans (suffix_of_after? begins)
        · split at isRead
          · rename_i begins
            exact (suffix_of_instruction? isRead).trans (suffix_of_after? begins)
          · split at isRead
            · rename_i begins
              exact (suffix_of_closing? isRead).trans (suffix_of_after? begins)
            · exact suffix_of_opening? isRead
    exact Nat.lt_succ_of_le behind.length_le
  · rename_i notMarkup
    obtain ⟨first, further, rfl⟩ := List.exists_cons_of_ne_nil nonempty
    apply length_lt_of_run? _ isRead
    intro isMarkup
    exact notMarkup further (isMarkup ▸ rfl)

end Pieces

/-! ### Reading -/

/-- What absorbing takes off as a piece is read as that piece, unless it is an instruction named `xml`. -/
theorem read?_of_scan? {text rest : List Char} {piece : Markup} (scanned : scan? text = some (piece, rest))
    (notXml : ∀ value, piece ≠ .instruction ['x', 'm', 'l'] value) : read? text = some (piece, rest) := by
  unfold scan? at scanned
  split at scanned
  · rename_i inner begins
    have same : text = '<' :: '?' :: inner := Text.after?_eq_some_iff.mp begins
    subst same
    change instruction? inner = some (piece, rest)
    unfold instruction?
    split
    · rename_i declares
      obtain ⟨further, isMark⟩ := Option.isSome_iff_exists.mp declares
      obtain rfl := Text.after?_eq_some_iff.mp isMark
      change scanInstruction? ('x' :: 'm' :: 'l' :: ' ' :: further) = some (piece, rest) at scanned
      unfold scanInstruction? at scanned
      rw [if_pos (show beginsName ('x' :: _) = true from rfl)] at scanned
      obtain ⟨⟨value, left⟩, _, checked⟩ := Option.bind_eq_some_iff.mp scanned
      simp only at checked
      split at checked
      · cases checked
        exact absurd rfl (notXml value)
      · cases checked
    · exact scanned
  · exact scanned

section Reading

variable {document : Document} {last : Assembly}

private theorem notXml_of_absorbs {assembly next : Assembly} {rest : List Char} {piece : Markup}
    (noXml : ∀ item ∈ document.miscs, item.isNamedXml = false) (finished : last.finish? = some document)
    (added : assembly.add? piece = some next) (remaining : Absorbs next rest last) (value : List Char) :
    piece ≠ .instruction ['x', 'm', 'l'] value := by
  have kept {item : Misc} (met : item ∈ next.miscs) : item ∈ last.miscs := by
    clear added
    induction remaining with
    | done assembly =>
        exact met
    | step _ _ added _ ih =>
        exact ih finished (Assembly.mem_miscs_add? added (.inl met))
  rintro rfl
  have met := Assembly.mem_miscs_add? added (.inr ⟨_, _, rfl, rfl⟩)
  have named := noXml _ (Assembly.mem_miscs_finish? finished (kept met))
  exact absurd named (by simp [Misc.isNamedXml])

private theorem exists_piecesFrom_of_absorbs {assembly : Assembly} {text : List Char}
    (absorbs : Absorbs assembly text last) (noXml : ∀ item ∈ document.miscs, item.isNamedXml = false)
    (finished : last.finish? = some document) (before : List Markup) {fuel : Nat} (enough : text.length ≤ fuel) :
    ∃ further, piecesFrom fuel before text = some (before.reverse ++ further) ∧
      further.foldlM Assembly.add? assembly = some last := by
  induction absorbs generalizing before fuel with
  | done assembly =>
      refine ⟨[], ?_, rfl⟩
      rw [List.append_nil]
      cases fuel with
      | zero =>
          rfl
      | succ fuel =>
          rfl
  | @step assembly next last text rest piece nonempty scanned added remaining ih =>
      have isRead := read?_of_scan? scanned (notXml_of_absorbs noXml finished added remaining)
      have shorter := length_lt_of_read? nonempty isRead
      obtain ⟨first, further, rfl⟩ := List.exists_cons_of_ne_nil nonempty
      cases fuel with
      | zero =>
          simp at enough
      | succ fuel =>
          obtain ⟨pieces, atPieces, adds⟩ := @ih finished (piece :: before) fuel (by omega)
          refine ⟨piece :: pieces, ?_, ?_⟩
          · unfold piecesFrom
            rw [isRead]
            simpa using atPieces
          · rw [List.foldlM_cons, added]
            exact adds

/-- A text that is absorbed as a document without an instruction named `xml` is read as the document. -/
theorem read?_of_absorbs {limit : Nat} {text : String} (absorbs : Absorbs .empty text.toList last)
    (finished : last.finish? = some document) (noXml : ∀ item ∈ document.miscs, item.isNamedXml = false)
    (small : document.size ≤ limit) : Document.read? limit text = some document := by
  have noDeclaration : Text.after? ['<', '?', 'x', 'm', 'l', ' '] text.toList = none := by
    cases declares : Text.after? ['<', '?', 'x', 'm', 'l', ' '] text.toList with
    | none =>
        rfl
    | some rest =>
        rw [Text.after?_eq_some_iff.mp declares] at absorbs
        cases absorbs with
        | step _ scanned added remaining =>
            have isRead := read?_of_scan? scanned (notXml_of_absorbs noXml finished added remaining)
            cases isRead
  have body : afterProlog? text.toList = some text.toList := by
    unfold afterProlog?
    rw [noMark_of_absorbs absorbs finished]
    simp only [Option.getD_none]
    rw [noDeclaration]
  obtain ⟨pieces, atPieces, adds⟩ := exists_piecesFrom_of_absorbs absorbs noXml finished [] (Nat.le_refl _)
  exact Document.read?_eq_some_iff.mpr ⟨_, pieces, last, body, atPieces, adds, finished, small⟩

end Reading

end SamlGate.Canonical
