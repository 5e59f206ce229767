import SamlGate.Proofs.Canonical.Cursor

/-!
Reading canonical text as a document.

A document that begins with an XML declaration is read from behind it. Canonical text has no declaration, but
an instruction at its front may look like one; then reading skips that instruction, and the document element
is the same.
-/

namespace SamlGate.Canonical

open Xml Markup

/-! ### What the XML declaration takes off -/

/-- The second text is left of the first when characters other than an opening bracket are taken off. -/
def LeftBehind (text left : List Char) : Prop :=
  ∃ consumed, text = consumed ++ left ∧ '<' ∉ consumed

theorem LeftBehind.refl (text : List Char) : LeftBehind text text :=
  ⟨[], rfl, by simp⟩

theorem LeftBehind.trans {text between left : List Char} (first : LeftBehind text between)
    (second : LeftBehind between left) : LeftBehind text left := by
  obtain ⟨front, rfl, plainFront⟩ := first
  obtain ⟨back, rfl, plainBack⟩ := second
  refine ⟨front ++ back, (List.append_assoc _ _ _).symm, ?_⟩
  simp [plainFront, plainBack]

private theorem leftBehind_dropWhile {keeps : Char → Bool} (stops : keeps '<' = false) (text : List Char) :
    LeftBehind text (text.dropWhile keeps) := by
  refine ⟨text.takeWhile keeps, List.takeWhile_append_dropWhile.symm, ?_⟩
  intro member
  rw [List.mem_takeWhile_imp member] at stops
  cases stops

private theorem leftBehind_of_after? {mark text left : List Char} (plain : '<' ∉ mark)
    (found : Text.after? mark text = some left) : LeftBehind text left :=
  ⟨mark, Text.after?_eq_some_iff.mp found, plain⟩

theorem leftBehind_of_attribute? {text left : List Char} {given : QName × List Char}
    (isRead : attribute? text = some (given, left)) : LeftBehind text left := by
  obtain ⟨name, value⟩ := given
  obtain ⟨afterName, quoted, atName, atMark, quote, inside, opened, isQuote, same, plain, _⟩ :=
    attribute?_eq_some isRead
  have leavesName : LeftBehind text afterName := by
    unfold QName.read? at atName
    obtain ⟨_, _, sameRest⟩ := Option.map_eq_some_iff.mp atName
    cases sameRest
    exact leftBehind_dropWhile (by decide) text
  have leavesMark : LeftBehind afterName quoted :=
    (leftBehind_dropWhile (by decide) afterName).trans (leftBehind_of_after? (by decide) atMark)
  have leavesQuote : LeftBehind quoted inside := by
    refine (leftBehind_dropWhile (show isBlank '<' = false by decide) quoted).trans ?_
    rw [opened]
    refine ⟨[quote], rfl, ?_⟩
    rcases isQuote with double | single
    · rw [double]
      decide
    · rw [single]
      decide
  have leavesValue : LeftBehind inside left := by
    refine ⟨value ++ [quote], by simp [same], ?_⟩
    rw [List.mem_append, not_or]
    refine ⟨fun member => (plain '<' member).2 rfl, ?_⟩
    rcases isQuote with double | single
    · rw [double]
      decide
    · rw [single]
      decide
  exact leavesName.trans (leavesMark.trans (leavesQuote.trans leavesValue))

private theorem leftBehind_of_declared? {word text left : List Char}
    (isRead : declared? word text = some left) :
    LeftBehind text left := by
  unfold declared? at isRead
  obtain ⟨_, _, afterWord⟩ := Option.bind_eq_some_iff.mp isRead
  obtain ⟨⟨given, rest⟩, atAttribute, afterAttribute⟩ := Option.bind_eq_some_iff.mp afterWord
  refine (leftBehind_of_attribute? atAttribute).trans ?_
  simp only at afterAttribute
  split at afterAttribute
  · cases afterAttribute
    exact LeftBehind.refl _
  · split at afterAttribute
    · cases afterAttribute
      exact leftBehind_dropWhile (by decide) _
    · split at afterAttribute
      · cases afterAttribute
        exact LeftBehind.refl _
      · cases afterAttribute

private theorem leftBehind_of_declaredOrNot {word text left : List Char}
    (isRead : declaredOrNot word text = some left) : LeftBehind text left := by
  unfold declaredOrNot at isRead
  split at isRead
  · exact leftBehind_of_declared? isRead
  · cases isRead
    exact LeftBehind.refl _

/-- What is read of a document begins at its front or, where there is a declaration, behind it. -/
theorem afterProlog?_eq_some {text body : List Char} (noMark : Text.after? ['\uFEFF'] text = none)
    (isRead : afterProlog? text = some body) :
    Text.after? ['<', '?', 'x', 'm', 'l', ' '] text = none ∧ body = text ∨
      ∃ declaration, text = '<' :: '?' :: 'x' :: 'm' :: 'l' :: ' ' :: (declaration ++ '?' :: '>' :: body) ∧
        '<' ∉ declaration := by
  unfold afterProlog? at isRead
  rw [noMark] at isRead
  simp only [Option.getD_none] at isRead
  split at isRead
  · rename_i noDeclaration
    cases isRead
    exact Or.inl ⟨noDeclaration, rfl⟩
  · rename_i rest begins
    obtain ⟨afterVersion, version, more⟩ := Option.bind_eq_some_iff.mp isRead
    obtain ⟨afterEncoding, encoding, evenMore⟩ := Option.bind_eq_some_iff.mp more
    obtain ⟨afterStandalone, standalone, closes⟩ := Option.bind_eq_some_iff.mp evenMore
    have leaves : LeftBehind rest (afterStandalone.dropWhile isBlank) :=
      (leftBehind_dropWhile (by decide) rest).trans ((leftBehind_of_declared? version).trans
        ((leftBehind_of_declaredOrNot encoding).trans ((leftBehind_of_declaredOrNot standalone).trans
          (leftBehind_dropWhile (by decide) afterStandalone))))
    obtain ⟨declaration, same, plain⟩ := leaves
    refine Or.inr ⟨declaration, ?_, plain⟩
    rw [Text.after?_eq_some_iff.mp begins, same, Text.after?_eq_some_iff.mp closes]
    rfl

/-! ### Where the declaration ends -/

private theorem eq_of_append_end {declaration value body blanks further : List Char}
    (same : declaration ++ '?' :: '>' :: body = value ++ '?' :: '>' :: (blanks ++ '<' :: further))
    (plain : '<' ∉ declaration) (apart : Text.Apart '?' '>' value)
    (blank : ∀ character ∈ blanks, isBlank character = true) :
    body = blanks ++ '<' :: further := by
  rcases List.append_eq_append_iff.mp same with ⟨extra, longer, rest⟩ | ⟨extra, longer, rest⟩
  · -- The instruction would go on behind the declaration, over the mark that ends the latter.
    subst longer
    rcases extra with _ | ⟨first, _ | ⟨second, extra⟩⟩
    · simpa using rest
    · simp at rest
    · simp only [List.cons_append, List.cons.injEq] at rest
      obtain ⟨rfl, rfl, _⟩ := rest
      exact absurd ⟨rfl, rfl⟩ apart.right_of_append.rel
  · -- The declaration would go on behind the instruction, over the markup that follows it.
    subst longer
    rcases extra with _ | ⟨first, _ | ⟨second, extra⟩⟩
    · simpa using rest.symm
    · simp at rest
    · simp only [List.cons_append, List.cons.injEq] at rest
      obtain ⟨rfl, rfl, rest⟩ := rest
      have plainExtra : '<' ∉ extra := by
        intro member
        exact plain (by simp [member])
      rcases List.append_eq_append_iff.mp rest with ⟨more, split, tail⟩ | ⟨more, split, tail⟩
      · subst split
        cases more with
        | nil =>
            simp at tail
        | cons next more =>
            simp only [List.cons_append, List.cons.injEq] at tail
            exact absurd (by simp [← tail.1]) plainExtra
      · subst split
        cases more with
        | nil =>
            simp at tail
        | cons next more =>
            simp only [List.cons_append, List.cons.injEq] at tail
            have isBlankMark : isBlank '?' = true := by
              rw [tail.1]
              exact blank next (by simp)
            exact absurd isBlankMark (by decide)

/-! ### What is skipped does not matter -/

def behind (extra : List Misc) (assembly : Assembly) : Assembly :=
  { assembly with before := assembly.before ++ extra }

private theorem addElement?_behind {assembly next : Assembly} {element : Element} (extra : List Misc)
    (added : assembly.addElement? element = some next) :
    (behind extra assembly).addElement? element = some (behind extra next) := by
  obtain ⟨opened, before, root, after⟩ := assembly
  cases opened with
  | cons innermost outer =>
      cases added
      rfl
  | nil =>
      cases root with
      | none =>
          cases added
          rfl
      | some root =>
          cases added

private theorem addText?_behind {assembly next : Assembly} {characters : List Char} (extra : List Misc)
    (added : assembly.addText? characters = some next) :
    (behind extra assembly).addText? characters = some (behind extra next) := by
  obtain ⟨opened, before, root, after⟩ := assembly
  cases opened with
  | cons innermost outer =>
      cases added
      rfl
  | nil =>
      cases added

private theorem addMisc_behind (assembly : Assembly) (item : Misc) (extra : List Misc) :
    (behind extra assembly).addMisc item = behind extra (assembly.addMisc item) := by
  obtain ⟨opened, before, root, after⟩ := assembly
  cases opened with
  | cons innermost outer =>
      rfl
  | nil =>
      cases root with
      | none =>
          rfl
      | some root =>
          rfl

private theorem add?_behind {assembly next : Assembly} {piece : Markup} (extra : List Misc)
    (added : assembly.add? piece = some next) :
    (behind extra assembly).add? piece = some (behind extra next) := by
  cases piece with
  | opening name attributes closed =>
      obtain ⟨tag, isTag, afterTag⟩ := Option.bind_eq_some_iff.mp added
      refine Option.bind_eq_some_iff.mpr ⟨tag, isTag, ?_⟩
      split at afterTag
      · rename_i isClosed
        rw [if_pos isClosed]
        exact addElement?_behind extra afterTag
      · rename_i notClosed
        cases afterTag
        rw [if_neg notClosed]
        rfl
  | closing name =>
      simp only [Assembly.add?] at added ⊢
      split at added
      · rename_i innermost outer same
        split at added
        · rename_i sameName
          simp only [behind, same, if_pos sameName]
          exact addElement?_behind extra added
        · cases added
      · cases added
  | run written =>
      simp only [Assembly.add?] at added ⊢
      split at added
      · rename_i outside
        split at added
        · rename_i blank
          cases added
          rw [if_pos (show (behind extra assembly).opened.isEmpty = true from outside), if_pos blank]
        · cases added
      · rename_i inside
        obtain ⟨characters, isText, addsText⟩ := Option.bind_eq_some_iff.mp added
        rw [if_neg (show ¬ (behind extra assembly).opened.isEmpty = true from inside)]
        exact Option.bind_eq_some_iff.mpr ⟨characters, isText, addText?_behind extra addsText⟩
  | verbatim written =>
      exact addText?_behind extra added
  | comment text =>
      cases added
      exact congrArg some (addMisc_behind assembly _ extra)
  | instruction target value =>
      cases added
      exact congrArg some (addMisc_behind assembly _ extra)

private theorem absorbs_behind {assembly last : Assembly} {text : List Char} (extra : List Misc)
    (absorbs : Absorbs assembly text last) : Absorbs (behind extra assembly) text (behind extra last) := by
  induction absorbs with
  | done assembly =>
      exact .done _
  | step nonempty read added _ ih =>
      exact .step nonempty read (add?_behind extra added) ih

/-- Outside the document element, as long as there is none, only blanks can precede the next markup. -/
theorem exists_blanks_of_absorbs {assembly last : Assembly} {text : List Char} {other : Document}
    (outside : assembly.opened = []) (noRoot : assembly.root = none)
    (absorbs : Absorbs assembly text last) (finished : last.finish? = some other) :
    ∃ blanks further, text = blanks ++ '<' :: further ∧
      ∀ character ∈ blanks, isBlank character = true := by
  have notDone {rest : List Char} (absorbsRest : Absorbs assembly rest last) : rest ≠ [] := by
    rintro rfl
    cases absorbsRest with
    | done _ =>
        simp [Assembly.finish?, outside, noRoot] at finished
    | step nonempty _ _ _ =>
        exact nonempty rfl
  obtain ⟨first, text, rfl⟩ := List.exists_cons_of_ne_nil (notDone absorbs)
  by_cases markup : first = '<'
  · subst markup
    exact ⟨[], text, rfl, by simp⟩
  · cases absorbs with
    | step _ read added remaining =>
        have isRun : scan? (first :: text) = run? (first :: text) := by
          have noInstruction : Text.after? ['<', '?'] (first :: text) = none := by
            simp [Text.after?, Ne.symm markup]
          unfold scan?
          rw [noInstruction]
          simp only
          unfold read?
          split
          · rename_i inner same
            exact absurd (List.cons.inj same).1 markup
          · rfl
        rw [isRun] at read
        unfold run? at read
        simp only at read
        split at read
        · cases read
          simp only [Assembly.add?, outside, List.isEmpty_nil, if_true] at added
          split at added
          · rename_i blank
            cases added
            obtain ⟨next, further, left⟩ := List.exists_cons_of_ne_nil (notDone remaining)
            have stops := List.head?_dropWhile_not (fun character => decide (character ≠ '<')) (first :: text)
            rw [left] at stops
            have isMarkup : next = '<' := by
              simpa using stops
            refine ⟨(first :: text).takeWhile (fun character => character ≠ '<'), further, ?_,
              List.all_eq_true.mp blank⟩
            subst isMarkup
            rw [← left]
            exact List.takeWhile_append_dropWhile.symm
          · cases added
        · cases read

private theorem apart_blanks_append {text value : List Char} (apart : Text.Apart '?' '>' value) :
    Text.Apart '?' '>' (text.takeWhile isBlank ++ value) := by
  induction text with
  | nil =>
      exact apart
  | cons first text ih =>
      by_cases blank : isBlank first = true
      · rw [List.takeWhile_cons_of_pos blank, List.cons_append]
        refine List.IsChain.cons ih ?_
        rintro next _ ⟨rfl, _⟩
        exact absurd blank (by decide)
      · rw [List.takeWhile_cons_of_neg blank]
        exact apart

private theorem root_of_finish? {assembly : Assembly} {document : Document}
    (finished : assembly.finish? = some document) : assembly.root = some document.root := by
  unfold Assembly.finish? at finished
  split at finished
  · rename_i root _ same
    cases finished
    exact same
  · cases finished

private theorem exists_step_of_declaration {declaration body : List Char} {last : Assembly}
    {other : Document}
    (absorbs : Absorbs .empty
      ('<' :: '?' :: 'x' :: 'm' :: 'l' :: ' ' :: (declaration ++ '?' :: '>' :: body)) last)
    (finished : last.finish? = some other) (plain : '<' ∉ declaration) :
    ∃ item, Absorbs (behind [item] .empty) body last := by
  cases absorbs with
  | step _ read added remaining =>
      have read : scanInstruction? ('x' :: 'm' :: 'l' :: ' ' :: (declaration ++ '?' :: '>' :: body)) =
        some (_, _) := read
      unfold scanInstruction? at read
      rw [if_pos (show beginsName ('x' :: _) = true from rfl)] at read
      obtain ⟨⟨value, rest⟩, split, checked⟩ := Option.bind_eq_some_iff.mp read
      simp only at checked
      split at checked
      · cases checked
        cases added
        obtain ⟨blanks, further, same, blank⟩ := exists_blanks_of_absorbs rfl rfl remaining finished
        obtain ⟨ends, apart⟩ := Text.apart_of_upTo?_eq_some split
        have whole : declaration ++ '?' :: '>' :: body =
            ((declaration ++ '?' :: '>' :: body).takeWhile isBlank ++ value) ++
              '?' :: '>' :: (blanks ++ '<' :: further) := by
          rw [List.append_assoc, ← same]
          exact List.takeWhile_append_dropWhile.symm.trans (congrArg _ ends)
        have sameBody := eq_of_append_end whole plain (apart_blanks_append apart) blank
        rw [← sameBody] at same
        subst same
        exact ⟨_, remaining⟩
      · cases checked

theorem noMark_of_absorbs {text : List Char} {last : Assembly} {other : Document}
    (absorbs : Absorbs .empty text last) (finished : last.finish? = some other) :
    Text.after? ['\uFEFF'] text = none := by
  cases marked : Text.after? ['\uFEFF'] text with
  | none =>
      rfl
  | some rest =>
      obtain ⟨blanks, further, same, blank⟩ := exists_blanks_of_absorbs rfl rfl absorbs finished
      rw [Text.after?_eq_some_iff.mp marked] at same
      cases blanks with
      | nil =>
          simp at same
      | cons first blanks =>
          simp only [List.cons_append, List.cons.injEq] at same
          have isBlankMark := blank first List.mem_cons_self
          rw [← same.1] at isBlankMark
          exact absurd isBlankMark (by decide)

/-- Whatever reading takes off the front of a text, the document element is the one that is absorbed. -/
theorem root_eq_of_read? {limit : Nat} {text : String} {document other : Document} {last : Assembly}
    (isRead : Document.read? limit text = some document) (absorbs : Absorbs .empty text.toList last)
    (finished : last.finish? = some other) : document.root = other.root := by
  obtain ⟨body, pieces, lastToo, atBody, cut, added, finishedToo, _⟩ := Document.read?_eq_some_iff.mp isRead
  have absorbsBody := absorbs_of_readAll? cut added
  have noMark := noMark_of_absorbs absorbs finished
  rcases afterProlog?_eq_some noMark atBody with ⟨_, same⟩ | ⟨declaration, same, plain⟩
  · subst same
    cases absorbs.deterministic absorbsBody
    rw [finished] at finishedToo
    cases finishedToo
    rfl
  · rw [same] at absorbs
    obtain ⟨item, absorbsBehind⟩ := exists_step_of_declaration absorbs finished plain
    cases absorbsBehind.deterministic (absorbs_behind [item] absorbsBody)
    have root := root_of_finish? finished
    have rootToo := root_of_finish? finishedToo
    rw [show (behind [item] lastToo).root = lastToo.root from rfl, rootToo] at root
    exact Option.some.inj root

end SamlGate.Canonical
