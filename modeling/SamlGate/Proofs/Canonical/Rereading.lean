import SamlGate.Proofs.Canonical.Retelling

/-!
Canonical text is read as the document that it shows.

What is not shown is left out of the output with all that is below it. Reading the canonical text of a
sequence adds, to the element that is open, what the form tells of the nodes that are shown, with their tags
restated. Text is pending until markup follows; then it joins the text before it.
-/

namespace SamlGate.Canonical

open Xml Markup

/-! ### What is shown -/

def Hidden (shown : Nat → Bool) (start : Nat) (content : Content) : Prop :=
  ∀ position, start ≤ position → position < start + content.size → shown position = false

/-- Below an element that is not shown nothing is. -/
def Hereditary (shown : Nat → Bool) (start : Nat) : Content → Prop
  | .done => True
  | .leaf _ rest => Hereditary shown (start + 1) rest
  | .element _ inner rest =>
    (shown start = false → Hidden shown (start + 1) inner) ∧ Hereditary shown (start + 1) inner ∧
      Hereditary shown (start + 1 + inner.size) rest

def visible (shown : Nat → Bool) (start : Nat) : Content → Content
  | .done => .done
  | .leaf first rest =>
    if shown start then .leaf first (visible shown (start + 1) rest) else visible shown (start + 1) rest
  | .element tag inner rest =>
    if shown start then
      .element tag (visible shown (start + 1) inner) (visible shown (start + 1 + inner.size) rest)
    else visible shown (start + 1 + inner.size) rest

private theorem tags_visible_subset (shown : Nat → Bool) (start : Nat) (content : Content) :
    (visible shown start content).tags ⊆ content.tags := by
  induction content generalizing start with
  | done =>
      exact List.Subset.refl _
  | leaf first rest ih =>
      unfold visible
      split
      · exact ih (start + 1)
      · exact ih (start + 1)
  | element tag inner rest ihInner ihRest =>
      have later := List.subset_append_of_subset_right inner.tags (ihRest (start + 1 + inner.size))
      unfold visible
      split
      · apply List.cons_subset_cons
        exact List.append_subset.mpr ⟨List.subset_append_of_subset_left _ (ihInner (start + 1)), later⟩
      · exact List.subset_cons_of_subset tag later

theorem Hidden.leaf {shown : Nat → Bool} {start : Nat} {first : Leaf} {rest : Content}
    (hidden : Hidden shown start (.leaf first rest)) :
    shown start = false ∧ Hidden shown (start + 1) rest := by
  refine ⟨hidden start (Nat.le_refl _) (by simp [Content.size]), fun position after before => ?_⟩
  exact hidden position (by omega) (by simp only [Content.size]; omega)

theorem Hidden.element {shown : Nat → Bool} {start : Nat} {tag : Tag} {inner rest : Content}
    (hidden : Hidden shown start (.element tag inner rest)) :
    shown start = false ∧ Hidden shown (start + 1) inner ∧
      Hidden shown (start + 1 + inner.size) rest := by
  refine ⟨hidden start (Nat.le_refl _) (by simp [Content.size]), fun position after before => ?_,
    fun position after before => ?_⟩
  · exact hidden position (by omega) (by simp only [Content.size]; omega)
  · exact hidden position (by omega) (by simp only [Content.size]; omega)

private theorem contentPieces_of_hidden {form : Form} {shown : Nat → Bool} {surroundings : Surroundings}
    {start : Nat} {content : Content} (hidden : Hidden shown start content) :
    form.contentPieces shown surroundings start content = [] := by
  induction content generalizing surroundings start with
  | done =>
      rfl
  | leaf first rest ih =>
      obtain ⟨here, hiddenRest⟩ := hidden.leaf
      simp [Form.contentPieces, here, ih hiddenRest]
  | element tag inner rest ihInner ihRest =>
      obtain ⟨here, hiddenInner, hiddenRest⟩ := hidden.element
      simp [Form.contentPieces, here, ihInner hiddenInner, ihRest hiddenRest]

/-! ### What is added -/

/-- What a login looks at of an element below the root: its name and its text. -/
def brief (element : Element) : (String × String) × List Char :=
  ((element.tag.namespaceUri.getD "", element.tag.name.localName), element.inner.text)

def briefs (content : Content) : List ((String × String) × List Char) :=
  content.elements.map brief

theorem briefs_eq_of_sketches {content other : Content} (same : content.sketches = other.sketches) :
    briefs content = briefs other := by
  have ofSketches (content : Content) : briefs content = content.sketches.map
      (fun sketch => ((sketch.namespaceUri, sketch.localName), sketch.text)) := by
    rw [Content.sketches_eq, List.map_map]
    rfl
  rw [ofSketches, ofSketches, same]

/-! ### Open elements -/

def contentOf (opened : OpenElement) : Content :=
  Content.ofReversed opened.held

/-- The content of an open element if this text and then this sequence follow. -/
def followedBy (opened : OpenElement) (pending : List Char) (rest : Content) : Content :=
  opened.held.foldl Content.push (rest.withText pending)

/-- The last node that an open element holds is not a text, so text that follows joins none. -/
def AtMarkup (opened : OpenElement) : Prop :=
  ∀ characters earlier, opened.held ≠ .inl (.text characters) :: earlier

def under (base : Assembly) (opened : OpenElement) : Assembly :=
  { base with opened := opened :: base.opened }

def flushed (opened : OpenElement) (pending : List Char) : OpenElement :=
  if pending = [] then opened else opened.add (.inl (.text (String.ofList pending)))

private theorem flush?_under (base : Assembly) (opened : OpenElement) (pending : List Char) :
    flush? (under base opened) pending = some (under base (flushed opened pending)) := by
  unfold flush? flushed
  split
  · rfl
  · simp [under, Assembly.add?, text?_spelled, Assembly.addText?]

private theorem flushed_tag (opened : OpenElement) (pending : List Char) :
    (flushed opened pending).tag = opened.tag := by
  unfold flushed
  split
  · rfl
  · exact OpenElement.add_tag _ _

private theorem held_flushed {opened : OpenElement} {pending : List Char} (nonempty : pending ≠ [])
    (atMarkup : AtMarkup opened) :
    (flushed opened pending).held = .inl (.text (String.ofList pending)) :: opened.held := by
  unfold flushed OpenElement.add
  rw [if_neg nonempty]
  split
  · rename_i characters earlier _ same
    exact absurd same (atMarkup characters earlier)
  · rfl

private theorem contentOf_flushed {opened : OpenElement} (pending : List Char)
    (atMarkup : AtMarkup opened) :
    contentOf (flushed opened pending) = followedBy opened pending .done := by
  unfold contentOf followedBy Content.withText
  by_cases nothing : pending = []
  · rw [flushed, if_pos nothing, if_pos nothing]
    rfl
  · rw [held_flushed nothing atMarkup, if_neg nothing]
    rfl

/-- A node that is not a text ends the text that is pending. -/
theorem followedBy_add {opened : OpenElement} {item : Leaf ⊕ Element} (pending : List Char) (rest : Content)
    (atMarkup : AtMarkup opened) (notText : ∀ characters, item ≠ .inl (.text characters)) :
    AtMarkup ((flushed opened pending).add item) ∧
      followedBy ((flushed opened pending).add item) [] rest = followedBy opened pending (rest.push item) := by
  have held : ((flushed opened pending).add item).held = item :: (flushed opened pending).held := by
    unfold OpenElement.add
    split
    · exact absurd rfl (notText _)
    · rfl
  have notJoined (characters : List Char) : (rest.push item).withText characters =
      if characters = [] then rest.push item else .leaf (.text (String.ofList characters)) (rest.push item) := by
    unfold Content.withText
    split
    · rfl
    · cases item with
      | inl first =>
          cases first with
          | text characters =>
              exact absurd rfl (notText characters)
          | misc item =>
              rfl
      | inr element =>
          rfl
  constructor
  · intro characters earlier same
    rw [held] at same
    exact notText characters (List.cons.inj same).1
  · unfold followedBy
    rw [held, List.foldl_cons, notJoined]
    by_cases nothing : pending = []
    · rw [flushed, if_pos nothing, if_pos nothing]
      rfl
    · rw [held_flushed nothing atMarkup, if_neg nothing]
      rfl

/-- What is written is read, inside any open element that agrees with what is declared, as a sequence that
depends on the scope of that element. -/
def ReadsInside (declared : Scope) (written : List Char) (added : Scope → Content) : Prop :=
  ∀ base opened pending, Agrees opened.tag.scope declared → Permitted pending → AtMarkup opened →
    ∃ after pendingAfter, Permitted pendingAfter ∧ AtMarkup after ∧ after.tag = opened.tag ∧
      Reads ⟨under base opened, pending⟩ written ⟨under base after, pendingAfter⟩ ∧
      followedBy after pendingAfter .done = followedBy opened pending (added opened.tag.scope)

theorem ReadsInside.nothing (declared : Scope) : ReadsInside declared [] (fun _ => .done) :=
  fun _ opened pending _ permitted atMarkup =>
    ⟨opened, pending, permitted, atMarkup, rfl, Reads.refl _, rfl⟩

section InFront

variable {declared : Scope} {written : List Char} {added : Scope → Content}

theorem ReadsInside.text {characters : String} (reads : ReadsInside declared written added)
    (permitted : Permitted characters.toList) :
    ReadsInside declared (spelled .text characters.toList ++ written)
      (fun scope => (added scope).withText characters.toList) := by
  intro base opened pending agrees pendingPermitted atMarkup
  obtain ⟨after, pendingAfter, permittedAfter, atMarkupAfter, sameTag, readsRest, whole⟩ :=
    reads base opened (pending ++ characters.toList) agrees
      (permitted_append_iff.mpr ⟨pendingPermitted, permitted⟩) atMarkup
  refine ⟨after, pendingAfter, permittedAfter, atMarkupAfter, sameTag, ?_, ?_⟩
  · exact (reads_text _ _ _).trans readsRest
  · rw [whole, followedBy, Content.withText_append, followedBy]

theorem ReadsInside.misc {item : Misc} (reads : ReadsInside declared written added) (valid : item.Valid) :
    ReadsInside declared (writtenMisc item ++ written)
      (fun scope => .leaf (.misc (reread item)) (added scope)) := by
  intro base opened pending agrees permitted atMarkup
  have sameTagFirst : ((flushed opened pending).add (.inl (.misc (reread item)))).tag = opened.tag := by
    rw [OpenElement.add_tag, flushed_tag]
  obtain ⟨atMarkupToo, wholeFirst⟩ := @followedBy_add opened (.inl (.misc (reread item))) pending
    (added opened.tag.scope) atMarkup nofun
  obtain ⟨after, pendingAfter, permittedAfter, atMarkupAfter, sameTag, readsRest, whole⟩ :=
    reads base _ [] (sameTagFirst ▸ agrees) (by simp [Permitted]) atMarkupToo
  refine ⟨after, pendingAfter, permittedAfter, atMarkupAfter, sameTag.trans sameTagFirst, ?_, ?_⟩
  · exact (reads_misc valid permitted (flush?_under base opened pending)).trans readsRest
  · rw [whole, sameTagFirst, wholeFirst]
    rfl

end InFront

/-! ### Elements -/

def elementSpelling (form : Form) (surroundings : Surroundings) (tag : Tag) (inner : List Char) :
    List Char :=
  (form.startTag surroundings tag).spelling ++ (inner ++ '<' :: '/' :: (tag.name.written.toList ++ ['>']))

section Elements

variable {form : Form} {surroundings : Surroundings} {tag : Tag} {inner : List Char}
  {held : Scope → Content}

/-- An element is read as one with its tag restated and with what is read of what it holds. -/
theorem reads_element {assembly before next : Assembly} {pending : List Char} (valid : tag.Valid)
    (faithful : Faithful tag) (alone : TakesNothingOver form surroundings) (permitted : Permitted pending)
    (flushes : flush? assembly pending = some before) (agrees : Agrees before.scope surroundings.declared)
    (readsInner : ReadsInside (form.declarations surroundings.declared tag ++ surroundings.declared) inner held)
    (added : before.addElement?
      ⟨form.restatedTag surroundings.declared before.scope tag,
        held (rescoped form surroundings.declared before.scope tag)⟩ = some next) :
    Reads ⟨assembly, pending⟩ (elementSpelling form surroundings tag inner) ⟨next, []⟩ := by
  obtain ⟨after, pendingAfter, permittedAfter, atMarkup, sameTag, reads, whole⟩ :=
    readsInner before ⟨form.restatedTag surroundings.declared before.scope tag, []⟩ [] (agrees.inside valid)
      (by simp [Permitted]) nofun
  have opening : Reads ⟨assembly, pending⟩ (form.startTag surroundings tag).spelling
      ⟨under before ⟨form.restatedTag surroundings.declared before.scope tag, []⟩, []⟩ := by
    rw [startTag_spelling alone]
    refine reads_piece permitted flushes ⟨_, rfl⟩
      (fun rest => scan?_opening valid.name (valid_writtenOn valid)) ?_
    simp only [Assembly.add?, ofWritten?_restatedTag valid faithful agrees.same]
    rfl
  have closing : Reads ⟨under before after, pendingAfter⟩
      ('<' :: '/' :: (tag.name.written.toList ++ ['>'])) ⟨next, []⟩ := by
    have read (rest : List Char) :
        scan? ('<' :: '/' :: (tag.name.written.toList ++ ['>']) ++ rest) =
          some (.closing tag.name, rest) := by
      simpa using scan?_closing valid.name
    refine reads_piece permittedAfter (flush?_under before after pendingAfter) ⟨_, rfl⟩ read ?_
    have content := contentOf_flushed pendingAfter atMarkup
    rw [whole] at content
    unfold contentOf at content
    simp only [Assembly.add?, under, flushed_tag, sameTag, content]
    exact (if_pos rfl).trans added
  exact opening.trans (reads.trans closing)

theorem ReadsInside.element {written : List Char} {added : Scope → Content}
    (reads : ReadsInside surroundings.declared written added) (valid : tag.Valid) (faithful : Faithful tag)
    (alone : TakesNothingOver form surroundings)
    (readsInner :
      ReadsInside (form.declarations surroundings.declared tag ++ surroundings.declared) inner held) :
    ReadsInside surroundings.declared (elementSpelling form surroundings tag inner ++ written)
      (fun scope =>
        .element (form.restatedTag surroundings.declared scope tag)
          (held (rescoped form surroundings.declared scope tag)) (added scope)) := by
  intro base opened pending agrees permitted atMarkup
  have sameScope : (under base (flushed opened pending)).scope = opened.tag.scope := by
    change (flushed opened pending).tag.scope = opened.tag.scope
    rw [flushed_tag]
  have agreesFlushed : Agrees (under base (flushed opened pending)).scope surroundings.declared :=
    sameScope ▸ agrees
  obtain ⟨other, isOther⟩ : ∃ other : Element, other =
      ⟨form.restatedTag surroundings.declared opened.tag.scope tag,
        held (rescoped form surroundings.declared opened.tag.scope tag)⟩ :=
    ⟨_, rfl⟩
  have readsElement : Reads ⟨under base opened, pending⟩ (elementSpelling form surroundings tag inner)
      ⟨under base ((flushed opened pending).add (.inr other)), []⟩ := by
    apply reads_element valid faithful alone permitted (flush?_under base opened pending) agreesFlushed
      readsInner
    rw [sameScope, isOther]
    rfl
  have sameTagFirst : ((flushed opened pending).add (.inr other)).tag = opened.tag := by
    rw [OpenElement.add_tag, flushed_tag]
  obtain ⟨atMarkupToo, wholeFirst⟩ := @followedBy_add opened (.inr other) pending (added opened.tag.scope)
    atMarkup nofun
  obtain ⟨after, pendingAfter, permittedAfter, atMarkupAfter, sameTag, readsRest, whole⟩ :=
    reads base _ [] (sameTagFirst ▸ agrees) (by simp [Permitted]) atMarkupToo
  refine ⟨after, pendingAfter, permittedAfter, atMarkupAfter, sameTag.trans sameTagFirst, ?_, ?_⟩
  · exact readsElement.trans readsRest
  · rw [whole, sameTagFirst, wholeFirst, isOther]
    rfl

end Elements

/-! ### Sequences -/

def contentSpelling (form : Form) (shown : Nat → Bool) (surroundings : Surroundings) (start : Nat)
    (content : Content) : List Char :=
  (form.contentPieces shown surroundings start content).flatMap Piece.spelling

section Spelling

variable {form : Form} {shown : Nat → Bool} {surroundings : Surroundings} {start : Nat} {first : Leaf}
  {tag : Tag} {inner rest : Content}

theorem contentSpelling_of_hidden {content : Content} (hidden : Hidden shown start content) :
    contentSpelling form shown surroundings start content = [] := by
  rw [contentSpelling, contentPieces_of_hidden hidden]
  rfl

theorem contentSpelling_leaf :
    contentSpelling form shown surroundings start (.leaf first rest) =
      (if shown start then form.leafPieces first else []).flatMap Piece.spelling ++
        contentSpelling form shown surroundings (start + 1) rest := by
  simp [contentSpelling, Form.contentPieces]

theorem contentSpelling_element (here : shown start = true) :
    contentSpelling form shown surroundings start (.element tag inner rest) =
      elementSpelling form surroundings tag
          (contentSpelling form shown
            (surroundings.inside tag (some (form.startTag surroundings tag))) (start + 1) inner) ++
        contentSpelling form shown surroundings (start + 1 + inner.size) rest := by
  simp [contentSpelling, elementSpelling, Form.contentPieces, here, Piece.spelling, Form.startTag]

theorem contentSpelling_hidden_element (here : shown start = false) :
    contentSpelling form shown surroundings start (.element tag inner rest) =
      contentSpelling form shown (surroundings.inside tag none) (start + 1) inner ++
        contentSpelling form shown surroundings (start + 1 + inner.size) rest := by
  simp [contentSpelling, Form.contentPieces, here]

end Spelling

/-- What is written for a sequence is read as what the form tells of the nodes of it that are shown. -/
theorem readsInside_content {form : Form} {shown : Nat → Bool} {surroundings : Surroundings} {start : Nat}
    {content : Content} (valid : content.Valid) (faithful : ∀ tag ∈ content.tags, Faithful tag)
    (hereditary : Hereditary shown start content) (alone : TakesNothingOver form surroundings) :
    ReadsInside surroundings.declared (contentSpelling form shown surroundings start content)
      (fun outer => form.restated surroundings.declared outer (form.told (visible shown start content))) := by
  induction content generalizing surroundings start with
  | done =>
      exact .nothing _
  | leaf first rest ih =>
      obtain ⟨firstValid, restValid⟩ := Content.valid_leaf_iff.mp valid
      have readsRest := ih restValid faithful hereditary alone
      rw [contentSpelling_leaf, visible]
      by_cases here : shown start = true
      · rw [if_pos here, if_pos here]
        cases first with
        | text characters =>
            simp only [Form.told, restated_withText]
            simpa [Form.leafPieces, Piece.spelling, escaped_eq_spelled] using readsRest.text firstValid
        | misc item =>
            by_cases kept : form.keeps item = true
            · simpa [Form.leafPieces, Form.told, Form.restated, kept, Piece.spelling] using
                readsRest.misc firstValid
            · simpa [Form.leafPieces, Form.told, kept] using readsRest
      · rw [if_neg here, if_neg here]
        exact readsRest
  | element tag inner rest ihInner ihRest =>
      obtain ⟨tagValid, innerValid, restValid⟩ := Content.valid_element_iff.mp valid
      obtain ⟨tagFaithful, tagsFaithful⟩ := List.forall_mem_cons.mp faithful
      obtain ⟨innerFaithful, restFaithful⟩ := List.forall_mem_append.mp tagsFaithful
      obtain ⟨hiddenBelow, hereditaryInner, hereditaryRest⟩ := hereditary
      have readsRest := ihRest restValid restFaithful hereditaryRest alone
      by_cases here : shown start = true
      · have aloneInside : TakesNothingOver form
            (surroundings.inside tag (some (form.startTag surroundings tag))) :=
          .inl (takesOver_of_held rfl form)
        have readsInner := ihInner innerValid innerFaithful hereditaryInner aloneInside
        rw [contentSpelling_element here, visible, if_pos here]
        exact readsRest.element tagValid tagFaithful alone readsInner
      · have notHere : shown start = false := by
          simpa using here
        rw [contentSpelling_hidden_element notHere, contentSpelling_of_hidden (hiddenBelow notHere),
          visible, if_neg here]
        exact readsRest

theorem readers_restated (form : Form) {shown : Nat → Bool} {start : Nat} {content : Content}
    {declared outer : Scope} (valid : content.Valid) (faithful : ∀ tag ∈ content.tags, Faithful tag)
    (agrees : Agrees outer declared) :
    (form.restated declared outer (form.told (visible shown start content))).text =
        (visible shown start content).text ∧
      (form.restated declared outer (form.told (visible shown start content))).sketches =
        (visible shown start content).sketches ∧
      ∀ tag ∈ (form.restated declared outer (form.told (visible shown start content))).tags,
        tag.scope.Conforms := by
  have among : (form.told (visible shown start content)).tags ⊆ content.tags := by
    rw [tags_told]
    exact tags_visible_subset shown start content
  have tagsValid := fun tag member => valid.tags tag (among member)
  have alike := @matches_restated form _ _ _ tagsValid (fun tag member => faithful tag (among member)) agrees
  refine ⟨?_, ?_, conforms_restated tagsValid agrees⟩
  · exact alike.text.trans (text_told form _)
  · exact (sketches_eq_of_matches tagsValid alike).trans (sketches_told form _)

end SamlGate.Canonical
