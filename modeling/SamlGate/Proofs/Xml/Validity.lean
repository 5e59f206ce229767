import SamlGate.Proofs.Xml.Content
import SamlGate.Proofs.Xml.Scope
import SamlGate.Proofs.Xml.Subtrees

/-!
Documents that are read are valid.

Each piece of markup takes a valid assembly to a valid one, so the tags of a document that is read have the
meaning that their scopes give them, and its leaves can be written again.
-/

namespace SamlGate.Xml

structure Content.Valid (content : Content) : Prop where
  tags : ∀ tag ∈ content.tags, tag.Valid
  leaves : ∀ leaf ∈ content.leaves, leaf.Valid

structure Element.Valid (element : Element) : Prop where
  tag : element.tag.Valid
  inner : element.inner.Valid

structure Document.Valid (document : Document) : Prop where
  before : ∀ item ∈ document.before, item.Valid
  root : document.root.Valid
  after : ∀ item ∈ document.after, item.Valid

def ItemValid : Leaf ⊕ Element → Prop
  | .inl first => first.Valid
  | .inr element => element.Valid

structure OpenElement.Valid (opened : OpenElement) : Prop where
  tag : opened.tag.Valid
  held : ∀ item ∈ opened.held, ItemValid item

structure Assembly.Valid (assembly : Assembly) : Prop where
  opened : ∀ innermost ∈ assembly.opened, innermost.Valid
  before : ∀ item ∈ assembly.before, item.Valid
  root : ∀ element ∈ assembly.root, element.Valid
  after : ∀ item ∈ assembly.after, item.Valid

private theorem Content.valid_done : Content.done.Valid :=
  ⟨by simp [Content.tags], by simp [Content.leaves]⟩

theorem Content.valid_leaf_iff {first : Leaf} {rest : Content} :
    (Content.leaf first rest).Valid ↔ first.Valid ∧ rest.Valid := by
  constructor
  · rintro ⟨tags, leaves⟩
    obtain ⟨here, later⟩ := List.forall_mem_cons.mp leaves
    exact ⟨here, tags, later⟩
  · rintro ⟨here, tags, later⟩
    exact ⟨tags, List.forall_mem_cons.mpr ⟨here, later⟩⟩

theorem Content.valid_element_iff {tag : Tag} {inner rest : Content} :
    (Content.element tag inner rest).Valid ↔ tag.Valid ∧ inner.Valid ∧ rest.Valid := by
  constructor
  · rintro ⟨tags, leaves⟩
    obtain ⟨here, below⟩ := List.forall_mem_cons.mp tags
    obtain ⟨tagsInner, tagsRest⟩ := List.forall_mem_append.mp below
    obtain ⟨leavesInner, leavesRest⟩ := List.forall_mem_append.mp leaves
    exact ⟨here, ⟨tagsInner, leavesInner⟩, ⟨tagsRest, leavesRest⟩⟩
  · rintro ⟨here, ⟨tagsInner, leavesInner⟩, ⟨tagsRest, leavesRest⟩⟩
    exact ⟨List.forall_mem_cons.mpr ⟨here, List.forall_mem_append.mpr ⟨tagsInner, tagsRest⟩⟩,
      List.forall_mem_append.mpr ⟨leavesInner, leavesRest⟩⟩

theorem Content.Has.valid {content : Content} {target start : Nat} {element : Element}
    (has : content.Has target start element) (valid : content.Valid) : element.Valid := by
  obtain ⟨tags, leaves⟩ := has.subset
  refine ⟨valid.tags _ (tags List.mem_cons_self), ?_, ?_⟩
  · intro tag member
    exact valid.tags tag (tags (List.mem_cons_of_mem _ member))
  · intro leaf member
    exact valid.leaves leaf (leaves member)

theorem Document.Valid.rootContent {document : Document} (valid : document.Valid) :
    document.rootContent.Valid :=
  Content.valid_element_iff.mpr ⟨valid.root.tag, valid.root.inner, Content.valid_done⟩

private theorem valid_foldl_push {held : List (Leaf ⊕ Element)} {rest : Content}
    (valid : ∀ item ∈ held, ItemValid item) (restValid : rest.Valid) :
    (held.foldl Content.push rest).Valid := by
  induction held generalizing rest with
  | nil =>
      exact restValid
  | cons item held ih =>
      obtain ⟨here, later⟩ := List.forall_mem_cons.mp valid
      refine ih later ?_
      cases item with
      | inl first =>
          exact Content.valid_leaf_iff.mpr ⟨here, restValid⟩
      | inr element =>
          exact Content.valid_element_iff.mpr ⟨here.tag, here.inner, restValid⟩

private theorem Content.valid_ofReversed {held : List (Leaf ⊕ Element)}
    (valid : ∀ item ∈ held, ItemValid item) :
    (Content.ofReversed held).Valid :=
  valid_foldl_push valid Content.valid_done

/-! ### Assembling -/

theorem OpenElement.Valid.add {opened : OpenElement} {item : Leaf ⊕ Element} (valid : opened.Valid)
    (itemValid : ItemValid item) : (opened.add item).Valid := by
  refine ⟨by simpa using valid.tag, ?_⟩
  unfold OpenElement.add
  split
  · rename_i more characters earlier same
    have heldValid := valid.held
    rw [same] at heldValid
    obtain ⟨here, later⟩ := List.forall_mem_cons.mp heldValid
    refine List.forall_mem_cons.mpr ⟨?_, later⟩
    change Permitted (characters ++ more).toList
    rw [String.toList_append]
    exact permitted_append_iff.mpr ⟨here, itemValid⟩
  · exact List.forall_mem_cons.mpr ⟨itemValid, valid.held⟩

namespace Assembly

theorem Valid.empty : Assembly.empty.Valid :=
  ⟨by simp [Assembly.empty], by simp [Assembly.empty], by simp [Assembly.empty], by simp [Assembly.empty]⟩

theorem Valid.scope {assembly : Assembly} (valid : assembly.Valid) :
    ∀ binding ∈ assembly.scope, binding.Valid := by
  unfold Assembly.scope
  split
  · simp
  · rename_i innermost outer same
    exact (valid.opened innermost (same ▸ List.mem_cons_self)).tag.bindings

theorem Valid.addElement? {assembly next : Assembly} {element : Element} (valid : assembly.Valid)
    (elementValid : element.Valid) (added : assembly.addElement? element = some next) : next.Valid := by
  unfold Assembly.addElement? at added
  split at added
  · rename_i innermost outer same
    cases added
    have openedValid := valid.opened
    rw [same] at openedValid
    obtain ⟨here, later⟩ := List.forall_mem_cons.mp openedValid
    exact ⟨List.forall_mem_cons.mpr ⟨here.add elementValid, later⟩, valid.before, valid.root, valid.after⟩
  · split at added
    · cases added
      refine ⟨valid.opened, valid.before, ?_, valid.after⟩
      intro other same
      cases same
      exact elementValid
    · cases added

theorem Valid.addText? {assembly next : Assembly} {characters : List Char} (valid : assembly.Valid)
    (permitted : Permitted characters) (added : assembly.addText? characters = some next) :
    next.Valid := by
  unfold Assembly.addText? at added
  split at added
  · rename_i innermost outer same
    cases added
    have openedValid := valid.opened
    rw [same] at openedValid
    obtain ⟨here, later⟩ := List.forall_mem_cons.mp openedValid
    have textValid : ItemValid (.inl (.text (String.ofList characters))) := by
      change Permitted (String.ofList characters).toList
      rwa [String.toList_ofList]
    exact ⟨List.forall_mem_cons.mpr ⟨here.add textValid, later⟩, valid.before, valid.root, valid.after⟩
  · cases added

theorem Valid.addMisc {assembly : Assembly} {item : Misc} (valid : assembly.Valid)
    (itemValid : item.Valid) : (assembly.addMisc item).Valid := by
  unfold Assembly.addMisc
  split
  · rename_i innermost outer same
    have openedValid := valid.opened
    rw [same] at openedValid
    obtain ⟨here, later⟩ := List.forall_mem_cons.mp openedValid
    have leafValid : ItemValid (.inl (.misc item)) := itemValid
    exact ⟨List.forall_mem_cons.mpr ⟨here.add leafValid, later⟩, valid.before, valid.root, valid.after⟩
  · split
    · exact ⟨valid.opened, List.forall_mem_cons.mpr ⟨itemValid, valid.before⟩, valid.root, valid.after⟩
    · exact ⟨valid.opened, valid.before, valid.root, List.forall_mem_cons.mpr ⟨itemValid, valid.after⟩⟩

/-- A valid piece of markup takes a valid assembly to a valid one. -/
theorem Valid.add? {assembly next : Assembly} {piece : Markup} (valid : assembly.Valid)
    (pieceValid : piece.Valid) (added : assembly.add? piece = some next) : next.Valid := by
  cases piece with
  | opening name attributes closed =>
      obtain ⟨tag, isTag, afterTag⟩ := Option.bind_eq_some_iff.mp added
      have tagValid : tag.Valid :=
        Tag.valid_of_ofWritten? valid.scope pieceValid.1 pieceValid.2 isTag
      split at afterTag
      · exact valid.addElement? ⟨tagValid, Content.valid_done⟩ afterTag
      · cases afterTag
        exact ⟨List.forall_mem_cons.mpr ⟨⟨tagValid, by simp⟩, valid.opened⟩, valid.before, valid.root,
          valid.after⟩
  | closing name =>
      simp only [Assembly.add?] at added
      split at added
      · rename_i innermost outer same
        split at added
        · have openedValid := valid.opened
          rw [same] at openedValid
          obtain ⟨here, later⟩ := List.forall_mem_cons.mp openedValid
          have outerValid : Assembly.Valid { assembly with opened := outer } :=
            ⟨later, valid.before, valid.root, valid.after⟩
          exact outerValid.addElement? ⟨here.tag, Content.valid_ofReversed here.held⟩ added
        · cases added
      · cases added
  | run written =>
      simp only [Assembly.add?] at added
      split at added
      · split at added
        · cases added
          exact valid
        · cases added
      · obtain ⟨characters, isText, addsText⟩ := Option.bind_eq_some_iff.mp added
        exact valid.addText? (permitted_of_text? pieceValid isText) addsText
  | verbatim written =>
      exact valid.addText? (permitted_verbatimText pieceValid) added
  | comment text =>
      cases added
      refine valid.addMisc ?_
      change CommentText (String.ofList text).toList
      rw [String.toList_ofList]
      exact pieceValid
  | instruction target value =>
      cases added
      refine valid.addMisc ?_
      change InstructionParts (String.ofList target).toList (String.ofList value).toList
      rw [String.toList_ofList, String.toList_ofList]
      exact pieceValid

theorem Valid.foldlM {assembly last : Assembly} {pieces : List Markup} (valid : assembly.Valid)
    (piecesValid : ∀ piece ∈ pieces, piece.Valid)
    (added : pieces.foldlM Assembly.add? assembly = some last) : last.Valid := by
  induction pieces generalizing assembly with
  | nil =>
      cases added
      exact valid
  | cons piece pieces ih =>
      obtain ⟨here, later⟩ := List.forall_mem_cons.mp piecesValid
      rw [List.foldlM_cons] at added
      obtain ⟨next, first, rest⟩ := Option.bind_eq_some_iff.mp added
      exact ih (valid.add? here first) later rest

theorem Valid.finish? {assembly : Assembly} {document : Document} (valid : assembly.Valid)
    (finished : assembly.finish? = some document) : document.Valid := by
  unfold Assembly.finish? at finished
  split at finished
  · rename_i root _ same
    cases finished
    exact ⟨by simpa using valid.before, valid.root root same, by simpa using valid.after⟩
  · cases finished

end Assembly

theorem Document.size_le_of_read? {limit : Nat} {text : String} {document : Document}
    (isRead : Document.read? limit text = some document) : document.size ≤ limit := by
  obtain ⟨_, _, _, _, _, _, _, small⟩ := Document.read?_eq_some_iff.mp isRead
  exact small

theorem Document.valid_of_read? {limit : Nat} {text : String} {document : Document}
    (isRead : Document.read? limit text = some document) : document.Valid := by
  obtain ⟨_, pieces, last, _, cut, added, finished, _⟩ := Document.read?_eq_some_iff.mp isRead
  exact (Assembly.Valid.empty.foldlM (Markup.valid_of_readAll? cut) added).finish? finished

theorem Document.read?_of_le {limit larger : Nat} (within : limit ≤ larger) {text : String}
    {document : Document} (isRead : Document.read? limit text = some document) :
    Document.read? larger text = some document := by
  rw [Document.read?_eq_some_iff] at isRead ⊢
  obtain ⟨body, pieces, last, afterProlog, cut, added, finished, small⟩ := isRead
  exact ⟨body, pieces, last, afterProlog, cut, added, finished, Nat.le_trans small within⟩

end SamlGate.Xml
