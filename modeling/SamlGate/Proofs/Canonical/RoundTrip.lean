import SamlGate.Proofs.Canonical.PlainText
import SamlGate.Proofs.Canonical.ReadBack
import SamlGate.Proofs.Xml.Nesting

/-!
Canonical text is read back as the same document, and canonicalizing it again changes nothing.

A tag that is restated knows the prefixes that its scope binds of those that are looked at, and what is in
force for them is the same. Its start tag declares what the start tag that was read declares, and its
attributes are in order already. So every start tag is written again as it was.
-/

namespace SamlGate.Canonical

open Xml

/-! ### Attributes in order -/

private theorem arranged_restatedTag (form : Form) (declared outer : Scope) (tag : Tag) :
    arranged (form.restatedTag declared outer tag) = arranged tag := by
  have ranks : Ranks (fun left right => Field.precedes (Field.ofAttribute left) (Field.ofAttribute right)) :=
    ⟨ranks_precedes.asymm, ranks_precedes.trans⟩
  exact ranks.arrange_arrange tag.attributes

/-! ### Declarations -/

/-- Each prefix that the output declares is bound in the scope, but for the default. -/
def Backs (scope declared : Scope) : Prop :=
  ∀ nsPrefix, nsPrefix ≠ "" → (declared.lookup? nsPrefix).isSome → (scope.lookup? nsPrefix).isSome

section Declarations

variable {form : Form} {declared outer scope : Scope} {tag : Tag}

private theorem Backs.extends (backs : Backs outer declared) (extends_ : scope.Extends outer) :
    Backs scope declared :=
  fun nsPrefix prefixed known => extends_ nsPrefix (backs nsPrefix prefixed known)

theorem Backs.inside (backs : Backs tag.scope declared) :
    Backs tag.scope (form.declarations declared tag ++ declared) := by
  intro nsPrefix prefixed known
  rw [Scope.lookup?_append, Option.isSome_or, Bool.or_eq_true] at known
  rcases known with here | around
  · obtain ⟨uri, bound⟩ := Option.isSome_iff_exists.mp here
    obtain ⟨binding, member, same, _⟩ := Scope.exists_of_lookup?_eq_some bound
    obtain ⟨_, _, found⟩ := List.mem_filterMap.mp member
    obtain ⟨ofPrefix, inForce | takenBack⟩ := declaration?_eq_some found
    · obtain ⟨source, inScope, samePrefix, _⟩ := exists_of_inForce?_eq_some inForce
      rw [Option.isSome_iff_ne_none, Ne, Scope.lookup?_eq_none_iff, not_not, ← same, ofPrefix]
      exact List.mem_map.mpr ⟨source, inScope, samePrefix⟩
    · exact absurd (same.symm.trans (ofPrefix.trans takenBack.2.1)) prefixed
  · exact backs nsPrefix prefixed around

private theorem inForce?_of_prefixed (conforms : scope.Conforms) {nsPrefix : String}
    (prefixed : nsPrefix ≠ "") :
    inForce? scope nsPrefix = scope.lookup? nsPrefix := by
  rw [inForce?_eq conforms]
  cases bound : scope.lookup? nsPrefix with
  | none =>
      rfl
  | some uri =>
      simp [Option.filter, conforms.ne_empty_of_lookup? prefixed bound]

section Restated

variable (valid : tag.Valid) (conforms : tag.scope.Conforms) (agrees : Agrees outer declared)
  (backs : Backs tag.scope declared)

include valid conforms agrees backs

/-- What is in force for a prefix whose declaration is due is so in the tag that is read. -/
theorem inForce?_rescoped {nsPrefix : String} (due : nsPrefix ∈ form.candidates tag)
    (notBuiltIn : nsPrefix ≠ "xml") :
    inForce? (rescoped form declared outer tag) nsPrefix = inForce? tag.scope nsPrefix := by
  have inside := @Agrees.inside form _ _ _ agrees valid
  obtain ⟨kept, takenBack⟩ := @lookup?_declarations form declared tag nsPrefix due notBuiltIn
  rw [inForce?_eq inside.conforms, inside.same]
  cases inForce : inForce? tag.scope nsPrefix with
  | some uri =>
      obtain ⟨_, _, _, _, notEmpty⟩ := exists_of_inForce?_eq_some inForce
      rw [kept uri inForce]
      simpa using notEmpty
  | none =>
      by_cases isDefault : nsPrefix = ""
      · have noDefault := takenBack inForce isDefault
        cases bound : Scope.lookup? (form.declarations declared tag ++ declared) nsPrefix with
        | none =>
            rfl
        | some uri =>
            rw [bound] at noDefault
            simpa using noDefault
      · have unbound : tag.scope.lookup? nsPrefix = none := by
          rw [← inForce?_of_prefixed conforms isDefault, inForce]
        have undeclared : Scope.lookup? (form.declarations declared tag ++ declared) nsPrefix = none := by
          rw [← Option.not_isSome_iff_eq_none]
          intro known
          have bound := backs.inside nsPrefix isDefault known
          rw [unbound] at bound
          cases bound
        rw [undeclared]
        rfl

private theorem mem_candidates_restatedTag (nsPrefix : String) :
    nsPrefix ∈ form.candidates (form.restatedTag declared outer tag) ↔ nsPrefix ∈ form.candidates tag := by
  by_cases exclusive : form.method.exclusive = true
  · have attributes : nsPrefix ∈ attributePrefixes (form.restatedTag declared outer tag) ↔
        nsPrefix ∈ attributePrefixes tag := by
      unfold attributePrefixes
      rw [List.mem_filter, List.mem_filter,
        ((perm_arranged tag).map (fun given : Attribute => given.name.nsPrefix)).mem_iff.symm]
      rfl
    simp only [Form.candidates, if_pos exclusive, List.mem_append, List.mem_cons, attributes]
    rfl
  · have bound (scope : Scope) (notDefault : nsPrefix ≠ "") :
        nsPrefix ∈ "" :: scope.map PrefixBinding.nsPrefix ↔ (scope.lookup? nsPrefix).isSome := by
      rw [List.mem_cons, or_iff_right notDefault, Option.isSome_iff_ne_none, Ne, Scope.lookup?_eq_none_iff,
        not_not]
    have inside := @Agrees.inside form _ _ _ agrees valid
    simp only [Form.candidates, if_neg exclusive]
    by_cases notDefault : nsPrefix = ""
    · rw [notDefault]
      exact iff_of_true List.mem_cons_self List.mem_cons_self
    · rw [bound _ notDefault, bound _ notDefault]
      change (Scope.lookup? (rescoped form declared outer tag) nsPrefix).isSome ↔ _
      rw [inside.same]
      constructor
      · exact backs.inside nsPrefix notDefault
      · intro known
        obtain ⟨uri, inScope⟩ := Option.isSome_iff_exists.mp known
        obtain ⟨binding, member, samePrefix, _⟩ := Scope.exists_of_lookup?_eq_some inScope
        have notBuiltIn : nsPrefix ≠ "xml" := samePrefix ▸ (valid.bindings binding member).notXml
        have due : nsPrefix ∈ form.candidates tag := by
          rw [Form.candidates, if_neg exclusive]
          exact (bound _ notDefault).mpr known
        have inForce := (inForce?_of_prefixed conforms notDefault).trans inScope
        rw [(lookup?_declarations due notBuiltIn).1 uri inForce]
        rfl

/-- A tag that is read declares what was declared where it was read. -/
theorem declarations_restatedTag :
    form.declarations declared (form.restatedTag declared outer tag) = form.declarations declared tag := by
  have candidates : distinct (form.candidates (form.restatedTag declared outer tag)) =
      distinct (form.candidates tag) :=
    distinct_congr (mem_candidates_restatedTag valid conforms agrees backs)
  unfold Form.declarations
  rw [candidates]
  apply List.filterMap_congr
  intro nsPrefix member
  obtain ⟨among, notBuiltIn⟩ := List.mem_filter.mp member
  have inForce := inForce?_rescoped valid conforms agrees backs (mem_distinct.mp among) (by simpa using notBuiltIn)
  unfold declaration?
  rw [← inForce]
  rfl

private theorem startTag_spelling_restatedTag {surroundings surroundingsToo : Surroundings}
    (alone : TakesNothingOver form surroundings) (aloneToo : TakesNothingOver form surroundingsToo)
    (same : surroundings.declared = declared) (sameToo : surroundingsToo.declared = declared) :
    (form.startTag surroundingsToo (form.restatedTag declared outer tag)).spelling =
      (form.startTag surroundings tag).spelling := by
  rw [startTag_spelling alone, startTag_spelling aloneToo, same, sameToo, writtenOn, writtenOn,
    declarations_restatedTag valid conforms agrees backs, arranged_restatedTag]
  rfl

end Restated

end Declarations

/-! ### Sequences of which everything is shown -/

def everywhere : Nat → Bool :=
  shownBy none

private theorem visible_everywhere (start : Nat) (content : Content) :
    visible everywhere start content = content := by
  induction content generalizing start with
  | done =>
      rfl
  | leaf first rest ih =>
      exact congrArg (Content.leaf first) (ih (start + 1))
  | element tag inner rest ihInner ihRest =>
      exact congrArg₂ (Content.element tag) (ihInner (start + 1)) (ihRest (start + 1 + inner.size))

private theorem hereditary_everywhere (start : Nat) (content : Content) :
    Hereditary everywhere start content := by
  induction content generalizing start with
  | done =>
      trivial
  | leaf first rest ih =>
      exact ih (start + 1)
  | element tag inner rest ihInner ihRest =>
      exact ⟨nofun, ihInner (start + 1), ihRest (start + 1 + inner.size)⟩

private theorem toldMiscs_everywhere (form : Form) (start : Nat) (items : List Misc) :
    form.toldMiscs everywhere start items = (items.filter form.keeps).map reread := by
  induction items generalizing start with
  | nil =>
      rfl
  | cons item items ih =>
      rw [Form.toldMiscs, ih, List.filter_cons]
      change (if form.keeps item = true then _ else _) = _
      split
      · rfl
      · rfl

section Sequences

variable {form : Form} {surroundings surroundingsToo : Surroundings}

private theorem contentSpelling_everywhere (start startToo : Nat) (content : Content) :
    contentSpelling form everywhere surroundings start content =
      contentSpelling form everywhere surroundings startToo content := by
  induction content generalizing surroundings start startToo with
  | done =>
      rfl
  | leaf first rest ih =>
      rw [contentSpelling_leaf, contentSpelling_leaf, ih (start + 1) (startToo + 1)]
      rfl
  | element tag inner rest ihInner ihRest =>
      rw [contentSpelling_element rfl, contentSpelling_element rfl, ihInner (start + 1) (startToo + 1),
        ihRest (start + 1 + inner.size) (startToo + 1 + inner.size)]

private theorem keeps_reread (item : Misc) : form.keeps (reread item) = form.keeps item := by
  cases item with
  | comment text =>
      rfl
  | instruction target value =>
      rfl

private theorem isNamedXml_reread (item : Misc) : (reread item).isNamedXml = item.isNamedXml := by
  cases item with
  | comment text =>
      rfl
  | instruction target value =>
      rfl

/-- What is escaped in an instruction is not escaped again. -/
theorem spelled_instruction_spelled (characters : List Char) :
    spelled .instruction (spelled .instruction characters) = spelled .instruction characters := by
  have noReturn : '\r' ∉ spelled .instruction characters := not_mem_spelled (by decide) (by decide) characters
  have unchanged : ∀ written ∈ spelled .instruction characters,
      Place.spelling .instruction written = [written] := by
    intro written member
    have plain : written ≠ '\r' := by
      rintro rfl
      exact noReturn member
    simp [Place.spelling, Place.reference?, plain]
  rw [spelled, List.flatMap_congr unchanged]
  exact List.flatMap_singleton' _

private theorem writtenMisc_reread (item : Misc) : writtenMisc (reread item) = writtenMisc item := by
  cases item with
  | comment text =>
      rfl
  | instruction target value =>
      have again : escaped .instruction (String.ofList (escaped .instruction value)) =
          escaped .instruction value := by
        rw [escaped_eq_spelled, String.toList_ofList, escaped_eq_spelled, spelled_instruction_spelled]
      by_cases noData : value = ""
      · simp [reread, escaped, noData]
      · have someData : escaped .instruction value ≠ [] := by
          rw [escaped_eq_spelled]
          exact spelled_ne_nil (by simpa using noData)
        simp [reread, writtenMisc, again, noData, someData]

private theorem contentSpelling_withText (start startToo : Nat) (characters : List Char) (rest : Content) :
    contentSpelling form everywhere surroundings start (rest.withText characters) =
      spelled .text characters ++ contentSpelling form everywhere surroundings startToo rest := by
  have text (start : Nat) (characters : String) (rest : Content) :
      contentSpelling form everywhere surroundings start (.leaf (.text characters) rest) =
        spelled .text characters.toList ++ contentSpelling form everywhere surroundings startToo rest := by
    rw [contentSpelling_leaf, contentSpelling_everywhere (start + 1) startToo]
    simp [everywhere, shownBy, Form.leafPieces, Piece.spelling, escaped_eq_spelled]
  unfold Content.withText
  split
  · rename_i nothing
    rw [nothing]
    exact contentSpelling_everywhere start startToo rest
  · unfold Content.joined
    split
    · rename_i characters more behind same
      cases same
      rw [text, text startToo more behind, String.toList_append, spelled_append, List.append_assoc,
        String.toList_ofList]
    · rw [text, String.toList_ofList]

private theorem contentSpelling_told (start startToo : Nat) (content : Content) :
    contentSpelling form everywhere surroundings start (form.told content) =
      contentSpelling form everywhere surroundings startToo content := by
  induction content generalizing surroundings start startToo with
  | done =>
      rfl
  | leaf first rest ih =>
      rw [contentSpelling_leaf, ← ih start (startToo + 1)]
      cases first with
      | text characters =>
          rw [Form.told, contentSpelling_withText start start]
          simp [everywhere, shownBy, Form.leafPieces, Piece.spelling, escaped_eq_spelled]
      | misc item =>
          by_cases kept : form.keeps item = true
          · rw [Form.told, if_pos kept, contentSpelling_leaf, contentSpelling_everywhere (start + 1) start]
            simp [everywhere, shownBy, Form.leafPieces, kept, keeps_reread, Piece.spelling, writtenMisc_reread]
          · rw [Form.told, if_neg kept]
            simp [Form.leafPieces, kept]
  | element tag inner rest ihInner ihRest =>
      rw [Form.told, contentSpelling_element rfl, contentSpelling_element rfl,
        ihInner (start + 1) (startToo + 1),
        ihRest (start + 1 + (form.told inner).size) (startToo + 1 + inner.size)]

/-- A sequence that is restated is written as it was. -/
theorem contentSpelling_restated {declared outer around : Scope} {content : Content}
    (valid : ∀ tag ∈ content.tags, tag.Valid) (conforms : ∀ tag ∈ content.tags, tag.scope.Conforms)
    (nested : content.Nested around) (agrees : Agrees outer declared) (backs : Backs around declared)
    (alone : TakesNothingOver form surroundings) (aloneToo : TakesNothingOver form surroundingsToo)
    (same : surroundings.declared = declared) (sameToo : surroundingsToo.declared = declared) (start : Nat) :
    contentSpelling form everywhere surroundingsToo start (form.restated declared outer content) =
      contentSpelling form everywhere surroundings start content := by
  induction content generalizing surroundings surroundingsToo declared outer around start with
  | done =>
      rfl
  | leaf first rest ih =>
      rw [Form.restated, contentSpelling_leaf, contentSpelling_leaf,
        ih valid conforms nested agrees backs alone aloneToo same sameToo]
  | element tag inner rest ihInner ihRest =>
      obtain ⟨tagValid, tagsValid⟩ := List.forall_mem_cons.mp valid
      obtain ⟨innerValid, restValid⟩ := List.forall_mem_append.mp tagsValid
      obtain ⟨tagConforms, tagsConform⟩ := List.forall_mem_cons.mp conforms
      obtain ⟨innerConforms, restConforms⟩ := List.forall_mem_append.mp tagsConform
      obtain ⟨extends_, innerNested, restNested⟩ := nested
      have tagBacks := backs.extends extends_
      have declaredInside :
          (surroundings.inside tag (some (form.startTag surroundings tag))).declared =
            form.declarations declared tag ++ declared := by
        simp only [Surroundings.inside, Form.startTag, Option.map_some, Option.getD_some, same]
      have declaredInsideToo :
          (surroundingsToo.inside (form.restatedTag declared outer tag)
              (some (form.startTag surroundingsToo (form.restatedTag declared outer tag)))).declared =
            form.declarations declared tag ++ declared := by
        simp only [Surroundings.inside, Form.startTag, Option.map_some, Option.getD_some, sameToo,
          declarations_restatedTag tagValid tagConforms agrees tagBacks]
      rw [Form.restated, contentSpelling_element rfl, contentSpelling_element rfl, size_restated,
        ihInner innerValid innerConforms innerNested (agrees.inside tagValid) tagBacks.inside
          (.inl (takesOver_of_held rfl form)) (.inl (takesOver_of_held rfl form)) declaredInside declaredInsideToo,
        ihRest restValid restConforms restNested agrees backs alone aloneToo same sameToo]
      unfold elementSpelling
      rw [startTag_spelling_restatedTag tagValid tagConforms agrees tagBacks alone aloneToo same sameToo]
      rfl

end Sequences

/-! ### What is kept of a sequence -/

section Kept

variable (form : Form)

private theorem nested_told {outer : Scope} {content : Content} (nested : content.Nested outer) :
    (form.told content).Nested outer := by
  induction content generalizing outer with
  | done =>
      trivial
  | leaf first rest ih =>
      cases first with
      | text characters =>
          exact Content.nested_withText _ (ih nested)
      | misc item =>
          unfold Form.told
          split
          · exact ih nested
          · exact ih nested
  | element tag inner rest ihInner ihRest =>
      obtain ⟨extends_, innerNested, restNested⟩ := nested
      exact ⟨extends_, ihInner innerNested, ihRest restNested⟩

private theorem size_told_le (content : Content) : (form.told content).size ≤ content.size := by
  induction content with
  | done =>
      exact Nat.le_refl _
  | leaf first rest ih =>
      cases first with
      | text characters =>
          exact (Content.size_withText_le _ _).trans (Nat.succ_le_succ ih)
      | misc item =>
          unfold Form.told
          split
          · exact Nat.succ_le_succ ih
          · exact Nat.le_succ_of_le ih
  | element tag inner rest ihInner ihRest =>
      exact Nat.succ_le_succ (Nat.add_le_add ihInner ihRest)

private theorem miscs_told (content : Content) :
    (form.told content).miscs = (content.miscs.filter form.keeps).map reread := by
  induction content with
  | done =>
      rfl
  | leaf first rest ih =>
      cases first with
      | text characters =>
          rw [Form.told, Content.miscs_withText, ih, Content.miscs]
      | misc item =>
          rw [Content.miscs, List.filter_cons, Form.told]
          split
          · rw [Content.miscs, ih, List.map_cons]
          · exact ih
  | element tag inner rest ihInner ihRest =>
      rw [Form.told, Content.miscs, Content.miscs, ihInner, ihRest, List.filter_append, List.map_append]

private theorem miscs_restated (declared outer : Scope) (content : Content) :
    (form.restated declared outer content).miscs = content.miscs := by
  induction content generalizing declared outer with
  | done =>
      rfl
  | leaf first rest ih =>
      cases first with
      | text characters =>
          exact ih declared outer
      | misc item =>
          exact congrArg (List.cons item) (ih declared outer)
  | element tag inner rest ihInner ihRest =>
      rw [Form.restated, Content.miscs, Content.miscs, ihInner, ihRest]

end Kept

/-! ### Documents -/

section Documents

variable {form : Form} {document : Document}

private theorem rootContent_retold :
    (form.retold everywhere document).rootContent = form.restated [] [] (form.told document.rootContent) := by
  simp only [Form.retold, Document.rootContent, visible_everywhere]
  rfl

private theorem miscs_retold :
    (form.retold everywhere document).miscs = (document.miscs.filter form.keeps).map reread := by
  simp only [Document.miscs, Form.retold, toldMiscs_everywhere, visible_everywhere, miscs_restated, miscs_told,
    List.filter_append, List.map_append]

private theorem size_retold_le : (form.retold everywhere document).size ≤ document.size := by
  have before := List.length_filter_le form.keeps document.before
  have after := List.length_filter_le form.keeps document.after
  have inner := size_told_le form document.root.inner
  simp only [Document.size, Element.size, Form.retold, toldMiscs_everywhere, visible_everywhere, size_restated,
    List.length_map]
  omega

private theorem flatMap_miscPieces_told (beforeRoot : Bool) (start startToo : Nat) (items : List Misc) :
    (form.miscPieces everywhere beforeRoot start ((items.filter form.keeps).map reread)).flatMap Piece.spelling =
      (form.miscPieces everywhere beforeRoot startToo items).flatMap Piece.spelling := by
  induction items generalizing start startToo with
  | nil =>
      rfl
  | cons item items ih =>
      rw [List.filter_cons, Form.miscPieces]
      by_cases kept : form.keeps item = true
      · rw [if_pos kept, List.map_cons, Form.miscPieces, List.flatMap_append, List.flatMap_append,
          ih (start + 1) (startToo + 1)]
        cases beforeRoot with
        | true =>
            simp [everywhere, shownBy, kept, keeps_reread, Piece.spelling, writtenMisc_reread]
        | false =>
            simp [everywhere, shownBy, kept, keeps_reread, Piece.spelling, writtenMisc_reread]
      · rw [if_neg kept, ih start (startToo + 1)]
        simp [kept]

private theorem text_retold (valid : document.Valid) (nested : document.root.Nested [])
    (conforms : ∀ tag ∈ document.root.tags, tag.scope.Conforms) :
    form.text (form.retold everywhere document) none = form.text document none := by
  have tags : (form.told document.rootContent).tags = document.root.tags := by
    rw [tags_told, document.tags_rootContent]
  have tagsValid : ∀ tag ∈ (form.told document.rootContent).tags, tag.Valid := by
    rw [tags, ← document.tags_rootContent]
    exact valid.rootContent.tags
  have toldNested : (form.told document.rootContent).Nested [] :=
    nested_told form ⟨nested.1, nested.2, trivial⟩
  have root := @contentSpelling_restated form (.outermost false) (.outermost false) [] [] [] _ tagsValid (tags ▸ conforms)
    toldNested ⟨fun _ => rfl, .nil⟩ nofun (.inr rfl) (.inr rfl) rfl rfl
  unfold Form.text
  change String.ofList ((form.pieces false everywhere (form.retold everywhere document)).flatMap _) =
    String.ofList ((form.pieces false everywhere document).flatMap _)
  rw [flatMap_pieces, flatMap_pieces, rootContent_retold, root,
    contentSpelling_told _ document.rootPosition]
  simp only [Form.retold, toldMiscs_everywhere]
  rw [flatMap_miscPieces_told true 1 1, flatMap_miscPieces_told]

end Documents

/-- A document that says what a form tells of another: the same tags, and of the leaves, in which texts that
come to touch are one text, all but the comments that the form leaves out. -/
structure Form.Retells (form : Form) (document other : Document) : Prop where
  before : other.before = (document.before.filter form.keeps).map reread
  tag : Alike document.root.tag other.root.tag
  inner : (form.told document.root.inner).Matches Alike other.root.inner
  after : other.after = (document.after.filter form.keeps).map reread

private theorem retells_retold {form : Form} {document : Document} (valid : document.Valid)
    (faithful : document.Faithful) : form.Retells document (form.retold everywhere document) := by
  have tags : (form.told document.rootContent).tags = document.root.tags := by
    rw [tags_told, document.tags_rootContent]
  have tagsValid : ∀ tag ∈ (form.told document.rootContent).tags, tag.Valid := by
    rw [tags, ← document.tags_rootContent]
    exact valid.rootContent.tags
  have root := @matches_restated form [] [] _ tagsValid (tags ▸ faithful) ⟨fun _ => rfl, .nil⟩
  rw [← rootContent_retold] at root
  cases root with
  | element here below _ =>
      exact ⟨toldMiscs_everywhere form _ _, here, below, toldMiscs_everywhere form _ _⟩

theorem readDocument_eq_ok_iff {text : String} {document : Document} :
    readDocument text = .ok document ↔ Document.read? defaultNodeLimit text = some document := by
  unfold readDocument
  cases Document.read? defaultNodeLimit text with
  | none =>
      simp
  | some found =>
      simp

/-- Canonical text is read back as a document that says the same, and it is its own canonical text. -/
theorem octetsOfText_reads_back {form : Form} {text : String} {document : Document}
    (isRead : readDocument text = .ok document)
    (conforms : ∀ tag ∈ document.root.tags, tag.scope.Conforms)
    (noXml : ∀ item ∈ document.miscs, item.isNamedXml = false) :
    ∃ out other, form.octetsOfText text = .ok (Octets.ofText out) ∧ readDocument out = .ok other ∧
      form.Retells document other ∧ form.octetsOfText out = .ok (Octets.ofText out) := by
  have found := readDocument_eq_ok_iff.mp isRead
  have valid := Document.valid_of_read? found
  have faithful : document.Faithful := fun tag member => faithful_of_conforms (conforms tag member)
  have absorbs : Absorbs .empty (form.text document none).toList
      (Assembly.ofDocument (form.retold everywhere document)) := by
    rw [Form.text, String.toList_ofList]
    exact absorbs_pieces valid faithful rfl (hereditary_everywhere _ _)
  have noXmlToo : ∀ item ∈ (form.retold everywhere document).miscs, item.isNamedXml = false := by
    rw [miscs_retold]
    intro item member
    obtain ⟨source, kept, same⟩ := List.mem_map.mp member
    rw [← same, isNamedXml_reread]
    exact noXml source (List.mem_of_mem_filter kept)
  have isReadBack : readDocument (form.text document none) = .ok (form.retold everywhere document) :=
    readDocument_eq_ok_iff.mpr (read?_of_absorbs absorbs (finish?_ofDocument _) noXmlToo
      (size_retold_le.trans (Document.size_le_of_read? found)))
  refine ⟨form.text document none, form.retold everywhere document, ?_, isReadBack,
    retells_retold valid faithful, ?_⟩
  · rw [Form.octetsOfText, isRead]
    rfl
  · rw [Form.octetsOfText, isReadBack]
    change Except.ok (form.octets (form.retold everywhere document) none) = _
    rw [Form.octets, text_retold valid (Document.nested_of_read? found) conforms]

/-- A document with a comment between two texts, an instruction with a carriage return and a default namespace
that is taken back. -/
def mixed : Document where
  before := [.instruction "p" "a\r", .comment "c"]
  root :=
    { tag := ⟨⟨"", "a"⟩, some "d", [⟨⟨"", "b"⟩, none, "\n"⟩], [⟨"", "d"⟩]⟩
      inner :=
        .element ⟨⟨"q", "e"⟩, some "u", [], [⟨"q", "u"⟩, ⟨"", ""⟩]⟩
          (.element ⟨⟨"", "f"⟩, some "", [], [⟨"q", "u"⟩, ⟨"", ""⟩]⟩ .done
            (.leaf (.text "x&") (.leaf (.misc (.comment "n")) (.leaf (.text "y") .done))))
          .done }
  after := []

theorem octetsOfText_reads_back_mixed :
    readDocument
          "<?p a\r?><!--c--><a xmlns='d' b='&#xA;'><q:e xmlns:q='u' xmlns=''><f/>x<![CDATA[&]]><!--n-->y</q:e></a>" =
        .ok mixed ∧
      (∃ out other,
        Form.octetsOfText ⟨⟨true, false⟩, []⟩
            "<?p a\r?><!--c--><a xmlns='d' b='&#xA;'><q:e xmlns:q='u' xmlns=''><f/>x<![CDATA[&]]><!--n-->y</q:e></a>" =
          .ok (Octets.ofText out) ∧
        readDocument out = .ok other ∧ Form.Retells ⟨⟨true, false⟩, []⟩ mixed other ∧
        Form.octetsOfText ⟨⟨true, false⟩, []⟩ out = .ok (Octets.ofText out)) ∧
      Form.text ⟨⟨true, false⟩, []⟩ mixed none =
        "<?p a&#xD;?>\n<a xmlns=\"d\" b=\"&#xA;\"><q:e xmlns:q=\"u\"><f xmlns=\"\"></f>x&amp;y</q:e></a>" := by
  have isRead : readDocument
      "<?p a\r?><!--c--><a xmlns='d' b='&#xA;'><q:e xmlns:q='u' xmlns=''><f/>x<![CDATA[&]]><!--n-->y</q:e></a>" =
        .ok mixed := by
    apply readDocument_eq_ok_iff.mpr
    decide +kernel
  exact ⟨isRead, octetsOfText_reads_back isRead (by decide) (by decide), by decide +kernel⟩

end SamlGate.Canonical
