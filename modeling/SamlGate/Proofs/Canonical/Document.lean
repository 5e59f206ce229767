import SamlGate.Proofs.Canonical.Rereading

/-!
Canonical text of a document is read as a document.

The document element that is read again has the name and the attributes of the one that was written, and
holds elements with the names and texts of those that are shown. Around it only comments, instructions and
line breaks are written, and these do not matter.
-/

namespace SamlGate.Xml

def Document.Faithful (document : Document) : Prop :=
  ∀ tag ∈ document.root.tags, Canonical.Faithful tag

instance (document : Document) : Decidable document.Faithful :=
  inferInstanceAs (Decidable (∀ tag ∈ document.root.tags, Canonical.Faithful tag))

end SamlGate.Xml

namespace SamlGate.Canonical

open Xml Markup

/-! ### Outside the document element -/

def OnlyBreaks (pending : List Char) : Prop :=
  ∀ character ∈ pending, character = '\n'

theorem OnlyBreaks.permitted {pending : List Char} (breaks : OnlyBreaks pending) : Permitted pending := by
  intro character member
  rw [breaks character member]
  decide

private theorem flush?_of_onlyBreaks {assembly : Assembly} {pending : List Char}
    (outside : assembly.opened = [])
    (breaks : OnlyBreaks pending) : flush? assembly pending = some assembly := by
  have blank : (spelled .text pending).all isBlank = true := by
    rw [List.all_eq_true]
    intro written member
    obtain ⟨character, among, inSpelling⟩ := List.mem_flatMap.mp member
    rw [breaks character among] at inSpelling
    have same : written = '\n' := by
      simpa [Place.spelling, Place.reference?] using inSpelling
    rw [same]
    decide
  unfold flush?
  split
  · rfl
  · simp only [Assembly.add?, outside, List.isEmpty_nil, if_true, blank]

/-- As long as there is no document element, what is added outside it stands before it. -/
theorem foldl_addMisc_before (before after items : List Misc) :
    items.foldl Assembly.addMisc ⟨[], before, none, after⟩ = ⟨[], items.reverse ++ before, none, after⟩ := by
  induction items generalizing before with
  | nil =>
      rfl
  | cons item items ih =>
      rw [List.reverse_cons, List.append_assoc]
      exact ih (item :: before)

private theorem foldl_addMisc_after (before after items : List Misc) (root : Element) :
    items.foldl Assembly.addMisc ⟨[], before, some root, after⟩ =
      ⟨[], before, some root, items.reverse ++ after⟩ := by
  induction items generalizing after with
  | nil =>
      rfl
  | cons item items ih =>
      rw [List.reverse_cons, List.append_assoc]
      exact ih (item :: after)

private theorem opened_addMisc {assembly : Assembly} (outside : assembly.opened = []) (item : Misc) :
    (assembly.addMisc item).opened = [] := by
  unfold Assembly.addMisc
  rw [outside]
  simp only
  split
  · rfl
  · rfl

def Form.toldMiscs (form : Form) (shown : Nat → Bool) (start : Nat) : List Misc → List Misc
  | [] => []
  | item :: rest =>
    if shown start && form.keeps item then reread item :: form.toldMiscs shown (start + 1) rest
    else form.toldMiscs shown (start + 1) rest

private theorem reads_miscPieces {form : Form} {shown : Nat → Bool} {beforeRoot : Bool} {start : Nat}
    {items : List Misc} {assembly : Assembly} {pending : List Char} (valid : ∀ item ∈ items, item.Valid)
    (outside : assembly.opened = []) (breaks : OnlyBreaks pending) :
    ∃ pendingAfter, OnlyBreaks pendingAfter ∧
      Reads ⟨assembly, pending⟩ ((form.miscPieces shown beforeRoot start items).flatMap Piece.spelling)
        ⟨(form.toldMiscs shown start items).foldl Assembly.addMisc assembly, pendingAfter⟩ := by
  have lineBreak (assembly : Assembly) (pending : List Char) :
      Reads ⟨assembly, pending⟩ ['\n'] ⟨assembly, pending ++ ['\n']⟩ :=
    reads_text assembly pending ['\n']
  induction items generalizing assembly pending start with
  | nil =>
      exact ⟨pending, breaks, Reads.refl _⟩
  | cons item items ih =>
      obtain ⟨here, later⟩ := List.forall_mem_cons.mp valid
      by_cases kept : (shown start && form.keeps item) = true
      · have outsideToo := opened_addMisc outside (reread item)
        rw [Form.toldMiscs, if_pos kept, List.foldl_cons]
        cases beforeRoot with
        | true =>
            obtain ⟨pendingAfter, breaksAfter, reads⟩ :=
              @ih (start + 1) _ ['\n'] later outsideToo (by simp [OnlyBreaks])
            refine ⟨pendingAfter, breaksAfter, ?_⟩
            have readsItem := reads_misc here breaks.permitted (flush?_of_onlyBreaks outside breaks)
            have spelling : (form.miscPieces shown true start (item :: items)).flatMap Piece.spelling =
                writtenMisc item ++ (['\n'] ++
                  (form.miscPieces shown true (start + 1) items).flatMap Piece.spelling) := by
              simp [Form.miscPieces, kept, Piece.spelling]
            rw [spelling]
            exact readsItem.trans ((lineBreak _ _).trans reads)
        | false =>
            obtain ⟨pendingAfter, breaksAfter, reads⟩ :=
              @ih (start + 1) _ [] later outsideToo (by simp [OnlyBreaks])
            refine ⟨pendingAfter, breaksAfter, ?_⟩
            have breaksToo : OnlyBreaks (pending ++ ['\n']) := by
              simpa [OnlyBreaks, or_imp, forall_and] using breaks
            have readsItem := reads_misc here breaksToo.permitted (flush?_of_onlyBreaks outside breaksToo)
            have spelling : (form.miscPieces shown false start (item :: items)).flatMap Piece.spelling =
                ['\n'] ++ (writtenMisc item ++
                  (form.miscPieces shown false (start + 1) items).flatMap Piece.spelling) := by
              simp [Form.miscPieces, kept, Piece.spelling]
            rw [spelling]
            exact (lineBreak _ _).trans (readsItem.trans reads)
      · have spelling : (form.miscPieces shown beforeRoot start (item :: items)).flatMap Piece.spelling =
            (form.miscPieces shown beforeRoot (start + 1) items).flatMap Piece.spelling := by
          rw [Form.miscPieces, if_neg kept, List.nil_append]
        rw [spelling, Form.toldMiscs, if_neg kept]
        exact ih later outside breaks

/-! ### The document element -/

def Form.retold (form : Form) (shown : Nat → Bool) (document : Document) : Document where
  before := form.toldMiscs shown 1 document.before
  root :=
    { tag := form.restatedTag [] [] document.root.tag
      inner :=
        form.restated (form.declarations [] document.root.tag ++ []) (rescoped form [] [] document.root.tag)
          (form.told (visible shown (document.rootPosition + 1) document.root.inner)) }
  after := form.toldMiscs shown (document.rootPosition + document.root.size) document.after

def Assembly.ofDocument (document : Document) : Assembly :=
  { opened := [], before := document.before.reverse, root := some document.root,
    after := document.after.reverse }

theorem finish?_ofDocument (document : Document) :
    (Assembly.ofDocument document).finish? = some document := by
  simp [Assembly.finish?, Assembly.ofDocument]

/-- The canonical text of a document with faithful tags is absorbed, and gives the document retold. -/
theorem absorbs_pieces {form : Form} {subset : Bool} {shown : Nat → Bool} {document : Document}
    (valid : document.Valid) (faithful : document.Faithful)
    (rootShown : shown document.rootPosition = true)
    (hereditary : Hereditary shown (document.rootPosition + 1) document.root.inner) :
    Absorbs .empty ((form.pieces subset shown document).flatMap Piece.spelling)
      (Assembly.ofDocument (form.retold shown document)) := by
  obtain ⟨tagFaithful, innerFaithful⟩ := List.forall_mem_cons.mp faithful
  obtain ⟨pendingFirst, breaksFirst, readsFirst⟩ :=
    @reads_miscPieces form shown true 1 document.before .empty [] valid.before rfl (by simp [OnlyBreaks])
  rw [Xml.Assembly.empty, foldl_addMisc_before, List.append_nil] at readsFirst
  have aloneOutermost : TakesNothingOver form (.outermost subset) := .inr rfl
  have aloneInside : TakesNothingOver form
      ((Surroundings.outermost subset).inside document.root.tag
        (some (form.startTag (.outermost subset) document.root.tag))) :=
    .inl (takesOver_of_held rfl form)
  have readsRoot := @reads_element form (.outermost subset) document.root.tag _ _
    ⟨[], (form.toldMiscs shown 1 document.before).reverse, none, []⟩ _ _ pendingFirst valid.root.tag
    tagFaithful aloneOutermost breaksFirst.permitted (flush?_of_onlyBreaks rfl breaksFirst)
    ⟨fun _ => rfl, .nil⟩ (readsInside_content valid.root.inner innerFaithful hereditary aloneInside) rfl
  obtain ⟨pendingLast, breaksLast, readsLast⟩ :=
    @reads_miscPieces form shown false (document.rootPosition + document.root.size) document.after
      ⟨[], (form.toldMiscs shown 1 document.before).reverse, some (form.retold shown document).root, []⟩
      [] valid.after rfl (by simp [OnlyBreaks])
  rw [foldl_addMisc_after, List.append_nil] at readsLast
  have spelling : (form.pieces subset shown document).flatMap Piece.spelling =
      (form.miscPieces shown true 1 document.before).flatMap Piece.spelling ++
        (elementSpelling form (.outermost subset) document.root.tag
            (contentSpelling form shown
              ((Surroundings.outermost subset).inside document.root.tag
                (some (form.startTag (.outermost subset) document.root.tag)))
              (document.rootPosition + 1) document.root.inner) ++
          (form.miscPieces shown false (document.rootPosition + document.root.size)
            document.after).flatMap Piece.spelling) := by
    simp [Form.pieces, Form.contentPieces, rootShown, elementSpelling, contentSpelling, Piece.spelling,
      Form.startTag]
  have reads := readsFirst.trans (readsRoot.trans readsLast)
  have ended : Absorbs (Assembly.ofDocument (form.retold shown document)) (spelled .text pendingLast ++ [])
      (Assembly.ofDocument (form.retold shown document)) :=
    absorbs_flush breaksLast.permitted (flush?_of_onlyBreaks rfl breaksLast) (by simp) (.done _)
  rw [spelling]
  have whole : Absorbs .empty _ _ := reads [] _ ended
  simpa [spelled] using whole

structure Retold (document : Document) (shown : Nat → Bool) (other : Element) : Prop where
  tag : Alike document.root.tag other.tag
  elements : briefs other.inner = briefs (visible shown (document.rootPosition + 1) document.root.inner)
  faithful : ∀ tag ∈ other.tags, Faithful tag

theorem retold_root (form : Form) {shown : Nat → Bool} {document : Document} (valid : document.Valid)
    (faithful : document.Faithful) : Retold document shown (form.retold shown document).root := by
  obtain ⟨tagFaithful, innerFaithful⟩ := List.forall_mem_cons.mp faithful
  have agrees : Agrees (rescoped form [] [] document.root.tag)
      (form.declarations [] document.root.tag ++ []) :=
    Agrees.inside ⟨fun _ => rfl, .nil⟩ valid.root.tag
  obtain ⟨_, elements, conforms⟩ := @readers_restated form shown (document.rootPosition + 1) _ _ _
    valid.root.inner innerFaithful agrees
  constructor
  · exact alike_restatedTag valid.root.tag tagFaithful (fun _ => rfl)
  · exact briefs_eq_of_sketches elements
  · refine List.forall_mem_cons.mpr ⟨faithful_of_conforms agrees.conforms, ?_⟩
    intro tag member
    exact faithful_of_conforms (conforms tag member)

end SamlGate.Canonical
