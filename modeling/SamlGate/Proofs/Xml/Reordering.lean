import Mathlib.Data.List.Perm.Basic
import SamlGate.Proofs.Xml.Validity

/-!
Documents that differ in the order of what stands on their start tags.

Two tags are reorderings of each other if they have the same attributes and the same bindings in scope, each
in some order. If what is written on the start tags of a text is put in another order, the text is still read,
as a document whose tags are reorderings. This needs scopes that conform: of two declarations of the default
namespace on one start tag the first counts.
-/

namespace SamlGate.Xml

open Outcome

/-! ### Lists with keys -/

section Keys

variable {α β : Type} [DecidableEq β] {key : α → β} {items others : List α}

private theorem find?_eq_some_iff_of_nodup (distinct : (items.map key).Nodup) {sought : β} {item : α} :
    items.find? (fun item => key item = sought) = some item ↔ item ∈ items ∧ key item = sought := by
  constructor
  · intro found
    exact ⟨List.mem_of_find?_eq_some found, by simpa using List.find?_some found⟩
  · intro conditions
    cases found : items.find? (fun item => key item = sought) with
    | none =>
        exact absurd (decide_eq_true conditions.2) (List.find?_eq_none.mp found item conditions.1)
    | some first =>
        have sameKey : key first = sought := by simpa using List.find?_some found
        rw [List.inj_on_of_nodup_map distinct (List.mem_of_find?_eq_some found) conditions.1
          (sameKey.trans conditions.2.symm)]

theorem find?_eq_of_perm (distinct : (items.map key).Nodup) (perm : others.Perm items) (sought : β) :
    others.find? (fun item => key item = sought) = items.find? (fun item => key item = sought) := by
  have distinctToo : (others.map key).Nodup := (perm.map key).nodup_iff.mpr distinct
  apply Option.ext
  intro item
  rw [find?_eq_some_iff_of_nodup distinctToo, find?_eq_some_iff_of_nodup distinct, perm.mem_iff]

end Keys

/-! ### Scopes -/

namespace Scope

variable {scope other own ownToo outer outerToo : Scope}

theorem lookup?_eq_of_perm (distinct : (scope.map PrefixBinding.nsPrefix).Nodup) (perm : other.Perm scope)
    (nsPrefix : String) : other.lookup? nsPrefix = scope.lookup? nsPrefix := by
  unfold lookup?
  rw [find?_eq_of_perm distinct perm]

theorem Conforms.perm (conforms : scope.Conforms) (perm : other.Perm scope) : other.Conforms where
  distinct := (perm.map PrefixBinding.nsPrefix).nodup_iff.mpr conforms.distinct
  bound := fun binding member => conforms.bound binding (perm.mem_iff.mp member)

private theorem others_eq_filter (taken : List String)
    (distinct : (scope.map PrefixBinding.nsPrefix).Nodup) :
    scope.others taken = scope.filter (fun binding => binding.nsPrefix ∉ taken) := by
  induction scope generalizing taken with
  | nil =>
      rfl
  | cons first scope ih =>
      have parts := List.nodup_cons.mp distinct
      unfold others
      split
      · rename_i known
        rw [ih taken parts.2, List.filter_cons_of_neg (by simpa using known)]
      · rename_i unknown
        rw [ih _ parts.2, List.filter_cons_of_pos (by simpa using unknown)]
        congr 1
        apply List.filter_congr
        intro binding member
        have different : binding.nsPrefix ≠ first.nsPrefix := by
          intro same
          exact parts.1 (List.mem_map.mpr ⟨binding, member, same⟩)
        simp [different]

private theorem within_perm (conforms : outer.Conforms) (permOwn : ownToo.Perm own)
    (permOuter : outerToo.Perm outer) :
    (within ownToo outerToo).Perm (within own outer) := by
  have sameEmpty : ownToo.isEmpty = own.isEmpty := by
    rw [Bool.eq_iff_iff, List.isEmpty_iff_length_eq_zero, List.isEmpty_iff_length_eq_zero,
      permOwn.length_eq]
  unfold within
  rw [sameEmpty]
  split
  · exact permOuter
  · apply permOwn.append
    rw [others_eq_filter _ conforms.distinct, others_eq_filter _ (conforms.perm permOuter).distinct]
    have sameTaken : (fun binding : PrefixBinding =>
          decide (binding.nsPrefix ∉ ownToo.map PrefixBinding.nsPrefix)) =
        fun binding => decide (binding.nsPrefix ∉ own.map PrefixBinding.nsPrefix) := by
      funext binding
      rw [decide_eq_decide, (permOwn.map PrefixBinding.nsPrefix).mem_iff]
    rw [sameTaken]
    exact permOuter.filter _

private theorem exists_perm_of_ofWritten? {written others : List WrittenAttribute}
    (perm : others.Perm written)
    (declares : ofWritten? written = some own) : ∃ ownToo, ofWritten? others = some ownToo ∧ ownToo.Perm own := by
  have declared := perm.filterMap WrittenAttribute.binding?
  have owned := declared.filter (fun binding => binding.uri ≠ xmlNamespace)
  have prefixes := (owned.map PrefixBinding.nsPrefix).filter (fun nsPrefix => nsPrefix ≠ "")
  unfold ofWritten? at declares ⊢
  simp only at declares ⊢
  split at declares
  · rename_i allowed
    cases declares
    refine ⟨_, if_pos ⟨?_, prefixes.nodup_iff.mpr allowed.2⟩, owned⟩
    rw [declared.all_eq]
    exact allowed.1
  · cases declares

private theorem conforms_of_ofWritten? {written : List WrittenAttribute}
    (conforms : Scope.Conforms (written.filterMap WrittenAttribute.binding?))
    (declares : ofWritten? written = some own) : own.Conforms := by
  unfold ofWritten? at declares
  simp only at declares
  split at declares
  · cases declares
    exact ⟨conforms.distinct.sublist (List.filter_sublist.map _),
      fun binding member => conforms.bound binding (List.mem_filter.mp member).1⟩
  · cases declares

end Scope

/-! ### Tags -/

/-- The other tag has the same name, and the same attributes and bindings in some order. -/
structure Tag.Reordered (tag other : Tag) : Prop where
  name : other.name = tag.name
  namespaceUri : other.namespaceUri = tag.namespaceUri
  attributes : other.attributes.Perm tag.attributes
  scope : other.scope.Perm tag.scope

private theorem Tag.exists_reordered_of_ofWritten? {outer outerToo : Scope} {name : QName}
    {written others : List WrittenAttribute} {tag : Tag} (outerConforms : outer.Conforms)
    (permOuter : outerToo.Perm outer)
    (conforms : Scope.Conforms (written.filterMap WrittenAttribute.binding?)) (perm : others.Perm written)
    (isRead : Tag.ofWritten? outer name written = some tag) :
    tag.scope.Conforms ∧ ∃ other, Tag.ofWritten? outerToo name others = some other ∧ tag.Reordered other := by
  unfold Tag.ofWritten? at isRead
  rcases Option.bind_eq_some_iff.mp isRead with ⟨own, declares, afterScope⟩
  rcases Option.bind_eq_some_iff.mp afterScope with ⟨namespaceUri, means, afterName⟩
  rcases Option.bind_eq_some_iff.mp afterName with ⟨attributes, given, checked⟩
  rcases Scope.exists_perm_of_ofWritten? perm declares with ⟨ownToo, declaresToo, permOwn⟩
  have scopeConforms : (Scope.within own outer).Conforms :=
    (Scope.conforms_of_ofWritten? conforms declares).within outerConforms
  have permScope := Scope.within_perm outerConforms permOwn permOuter
  have lookups := Scope.lookup?_eq_of_perm scopeConforms.distinct permScope
  have meansToo : (Scope.within ownToo outerToo).elementNamespace? name = some namespaceUri := by
    rw [← means]
    unfold Scope.elementNamespace?
    rw [lookups]
  have readers : Attribute.ofWritten? (Scope.within ownToo outerToo) =
      Attribute.ofWritten? (Scope.within own outer) := by
    funext field
    simp only [Attribute.ofWritten?, Scope.attributeNamespace?, lookups]
  rcases List.perm_comp_forall₂ (perm.filter (fun given => given.binding?.isNone))
    (mapM_eq_some_iff.mp given) with ⟨attributesToo, givenToo, permAttributes⟩
  split at checked
  · rename_i passes
    cases checked
    refine ⟨scopeConforms, ⟨name, namespaceUri, attributesToo, Scope.within ownToo outerToo⟩, ?_,
      rfl, rfl, permAttributes, permScope⟩
    unfold Tag.ofWritten?
    refine Option.bind_eq_some_iff.mpr ⟨ownToo, declaresToo, ?_⟩
    refine Option.bind_eq_some_iff.mpr ⟨namespaceUri, meansToo, ?_⟩
    refine Option.bind_eq_some_iff.mpr ⟨attributesToo, ?_, ?_⟩
    · rw [readers]
      exact mapM_eq_some_iff.mpr givenToo
    · exact if_pos ⟨passes.1, (permAttributes.map Attribute.meaning).nodup_iff.mpr passes.2⟩
  · cases checked

/-! ### Documents -/

/-- The other document has the same nodes at the same positions, but for the order on their start tags. -/
structure Document.Reordered (document other : Document) : Prop where
  before : other.before = document.before
  root : document.rootContent.Matches Tag.Reordered other.rootContent
  after : other.after = document.after

/-- The other tag is a reordering of a tag whose scope conforms. -/
def Tag.SafelyReordered (tag other : Tag) : Prop :=
  tag.scope.Conforms ∧ tag.Reordered other

inductive ItemReordered : Leaf ⊕ Element → Leaf ⊕ Element → Prop
  | leaf (first : Leaf) : ItemReordered (.inl first) (.inl first)
  | element {tag other : Tag} {inner innerToo : Content} (here : tag.SafelyReordered other)
      (below : inner.Matches Tag.SafelyReordered innerToo) :
      ItemReordered (.inr ⟨tag, inner⟩) (.inr ⟨other, innerToo⟩)

structure OpenElement.Reordered (opened other : OpenElement) : Prop where
  tag : opened.tag.SafelyReordered other.tag
  held : List.Forall₂ ItemReordered opened.held other.held

structure Assembly.Reordered (assembly other : Assembly) : Prop where
  opened : List.Forall₂ OpenElement.Reordered assembly.opened other.opened
  before : other.before = assembly.before
  root : Option.Rel (fun element other => ItemReordered (.inr element) (.inr other)) assembly.root other.root
  after : other.after = assembly.after

private theorem matches_foldl_push {held heldToo : List (Leaf ⊕ Element)} {rest restToo : Content}
    (same : List.Forall₂ ItemReordered held heldToo) (behind : rest.Matches Tag.SafelyReordered restToo) :
    (held.foldl Content.push rest).Matches Tag.SafelyReordered (heldToo.foldl Content.push restToo) := by
  induction same generalizing rest restToo with
  | nil =>
      exact behind
  | cons here _ ih =>
      apply ih
      cases here with
      | leaf first =>
          exact .leaf first behind
      | element sameTag below =>
          exact .element sameTag below behind

private theorem Content.matches_ofReversed {held heldToo : List (Leaf ⊕ Element)}
    (same : List.Forall₂ ItemReordered held heldToo) :
    (Content.ofReversed held).Matches Tag.SafelyReordered (Content.ofReversed heldToo) :=
  matches_foldl_push same .done

theorem OpenElement.Reordered.add {opened other : OpenElement} {item itemToo : Leaf ⊕ Element}
    (same : opened.Reordered other) (sameItem : ItemReordered item itemToo) :
    (opened.add item).Reordered (other.add itemToo) := by
  refine ⟨by simpa using same.tag, ?_⟩
  have held := same.held
  cases sameItem with
  | element here below =>
      exact .cons (.element here below) held
  | leaf first =>
      cases first with
      | misc item =>
          exact .cons (.leaf (.misc item)) held
      | text more =>
          -- The text joins the one before it in both, or in neither.
          unfold OpenElement.add
          cases before : opened.held with
          | nil =>
              rw [before, List.forall₂_nil_left_iff] at held
              rw [held]
              exact .cons (.leaf _) .nil
          | cons latest earlier =>
              rw [before] at held
              rcases List.forall₂_cons_left_iff.mp held with ⟨latestToo, earlierToo, sameLatest, sameEarlier, heldToo⟩
              rw [heldToo]
              cases sameLatest with
              | element here below =>
                  exact .cons (.leaf _) (.cons (.element here below) sameEarlier)
              | leaf first =>
                  cases first with
                  | text characters =>
                      exact .cons (.leaf _) sameEarlier
                  | misc item =>
                      exact .cons (.leaf _) (.cons (.leaf _) sameEarlier)

namespace Assembly

variable {assembly other next : Assembly}

theorem Reordered.empty : Assembly.empty.Reordered .empty :=
  ⟨.nil, rfl, .none, rfl⟩

private theorem Reordered.opened_eq_nil (same : assembly.Reordered other)
    (noneOpen : assembly.opened = []) :
    other.opened = [] := by
  have sameOpen := same.opened
  rw [noneOpen] at sameOpen
  exact List.forall₂_nil_left_iff.mp sameOpen

private theorem Reordered.exists_opened {innermost : OpenElement} {outer : List OpenElement}
    (same : assembly.Reordered other) (someOpen : assembly.opened = innermost :: outer) :
    ∃ innermostToo outerToo, other.opened = innermostToo :: outerToo ∧ innermost.Reordered innermostToo ∧
      List.Forall₂ OpenElement.Reordered outer outerToo := by
  have sameOpen := same.opened
  rw [someOpen] at sameOpen
  rcases List.forall₂_cons_left_iff.mp sameOpen with ⟨innermostToo, outerToo, here, around, openToo⟩
  exact ⟨innermostToo, outerToo, openToo, here, around⟩

private theorem Reordered.isNone_root (same : assembly.Reordered other) :
    other.root.isNone = assembly.root.isNone := by
  have sameRoot := same.root
  generalize assembly.root = root at sameRoot ⊢
  generalize other.root = rootToo at sameRoot ⊢
  cases sameRoot with
  | none =>
      rfl
  | some _ =>
      rfl

theorem Reordered.scope (same : assembly.Reordered other) :
    assembly.scope.Conforms ∧ other.scope.Perm assembly.scope := by
  unfold Assembly.scope
  cases open_ : assembly.opened with
  | nil =>
      rw [same.opened_eq_nil open_]
      exact ⟨.nil, .refl _⟩
  | cons innermost outer =>
      rcases same.exists_opened open_ with ⟨innermostToo, outerToo, openToo, here, _⟩
      rw [openToo]
      exact ⟨here.tag.1, here.tag.2.scope⟩

theorem Reordered.addElement? {element elementToo : Element} (same : assembly.Reordered other)
    (sameElement : ItemReordered (.inr element) (.inr elementToo))
    (added : assembly.addElement? element = some next) :
    ∃ nextToo, other.addElement? elementToo = some nextToo ∧ next.Reordered nextToo := by
  unfold Assembly.addElement? at added ⊢
  split at added
  · rename_i innermost outer open_
    rcases same.exists_opened open_ with ⟨innermostToo, outerToo, openToo, here, around⟩
    rw [openToo]
    cases added
    exact ⟨_, rfl, .cons (here.add sameElement) around, same.before, same.root, same.after⟩
  · rename_i open_
    rw [same.opened_eq_nil open_]
    split at added
    · rename_i noRoot
      cases added
      simp only [same.isNone_root, if_pos noRoot]
      exact ⟨_, rfl, by rw [open_]; exact .nil, same.before, .some sameElement, same.after⟩
    · cases added

theorem Reordered.addText? {characters : List Char} (same : assembly.Reordered other)
    (added : assembly.addText? characters = some next) :
    ∃ nextToo, other.addText? characters = some nextToo ∧ next.Reordered nextToo := by
  unfold Assembly.addText? at added ⊢
  split at added
  · rename_i innermost outer open_
    rcases same.exists_opened open_ with ⟨innermostToo, outerToo, openToo, here, around⟩
    rw [openToo]
    cases added
    exact ⟨_, rfl, .cons (here.add (.leaf _)) around, same.before, same.root, same.after⟩
  · cases added

theorem Reordered.addMisc (same : assembly.Reordered other) (item : Misc) :
    (assembly.addMisc item).Reordered (other.addMisc item) := by
  unfold Assembly.addMisc
  cases open_ : assembly.opened with
  | cons innermost outer =>
      rcases same.exists_opened open_ with ⟨innermostToo, outerToo, openToo, here, around⟩
      rw [openToo]
      exact ⟨.cons (here.add (.leaf _)) around, same.before, same.root, same.after⟩
  | nil =>
      rw [same.opened_eq_nil open_]
      simp only [same.isNone_root]
      split
      · exact ⟨.nil, congrArg (item :: ·) same.before, same.root, same.after⟩
      · exact ⟨.nil, same.before, same.root, congrArg (item :: ·) same.after⟩

theorem Reordered.opening {name : QName} {written others : List WrittenAttribute} {closed : Bool}
    (same : assembly.Reordered other) (perm : others.Perm written)
    (conforms : Scope.Conforms (written.filterMap WrittenAttribute.binding?))
    (added : assembly.add? (.opening name written closed) = some next) :
    ∃ nextToo, other.add? (.opening name others closed) = some nextToo ∧ next.Reordered nextToo := by
  rcases Option.bind_eq_some_iff.mp added with ⟨tag, isTag, afterTag⟩
  rcases Tag.exists_reordered_of_ofWritten? same.scope.1 same.scope.2 conforms perm isTag with
    ⟨tagConforms, tagToo, isTagToo, sameTag⟩
  simp only [Assembly.add?, isTagToo, Option.bind_eq_bind, Option.bind_some]
  split at afterTag
  · rename_i isClosed
    rw [if_pos isClosed]
    exact same.addElement? (.element ⟨tagConforms, sameTag⟩ .done) afterTag
  · rename_i isOpen
    rw [if_neg isOpen]
    cases afterTag
    refine ⟨_, rfl, .cons ⟨⟨tagConforms, sameTag⟩, ?_⟩ same.opened, same.before, same.root, same.after⟩
    exact .nil

theorem Reordered.closing {name : QName} (same : assembly.Reordered other)
    (added : assembly.add? (.closing name) = some next) :
    ∃ nextToo, other.add? (.closing name) = some nextToo ∧ next.Reordered nextToo := by
  simp only [Assembly.add?] at added ⊢
  split at added
  · rename_i innermost outer open_
    rcases same.exists_opened open_ with ⟨innermostToo, outerToo, openToo, here, around⟩
    simp only [openToo, here.tag.2.name]
    split at added
    · rename_i isNamed
      rw [if_pos isNamed]
      have sameAround : Assembly.Reordered { assembly with opened := outer } { other with opened := outerToo } :=
        ⟨around, same.before, same.root, same.after⟩
      exact sameAround.addElement? (.element here.tag (Content.matches_ofReversed here.held)) added
    · cases added
  · cases added

theorem Reordered.finish? {document : Document} (same : assembly.Reordered other)
    (finished : assembly.finish? = some document) :
    ∃ documentToo, other.finish? = some documentToo ∧ documentToo.before = document.before ∧
      document.rootContent.Matches Tag.SafelyReordered documentToo.rootContent ∧
      documentToo.after = document.after := by
  have sameRoot := same.root
  unfold Assembly.finish? at finished ⊢
  split at finished
  · rename_i root noneOpen isRoot
    cases finished
    rw [isRoot] at sameRoot
    rw [same.opened_eq_nil noneOpen, same.before, same.after]
    generalize other.root = found at sameRoot
    cases sameRoot with
    | some here =>
        cases here with
        | element sameTag below =>
            exact ⟨_, rfl, rfl, .element sameTag below .done, rfl⟩
  · cases finished

end Assembly

/-- Two pieces of markup are the same, but for the order in which things are written on a start tag. -/
inductive Markup.Reordered : Markup → Markup → Prop
  | opening (name : QName) {written others : List WrittenAttribute} (closed : Bool)
      (perm : others.Perm written) : Markup.Reordered (.opening name written closed) (.opening name others closed)
  | same (piece : Markup) : Markup.Reordered piece piece

/-- A start tag declares the default namespace once at most and binds no prefix to the empty namespace. That a
prefix is declared once is checked in reading. -/
def Markup.Conforms : Markup → Prop
  | .opening _ written _ => Scope.Conforms (written.filterMap WrittenAttribute.binding?)
  | _ => True

instance : (piece : Markup) → Decidable piece.Conforms
  | .opening _ written _ =>
    inferInstanceAs (Decidable (Scope.Conforms (written.filterMap WrittenAttribute.binding?)))
  | .closing _ | .run _ | .verbatim _ | .comment _ | .instruction _ _ => isTrue trivial

theorem Assembly.Reordered.add? {assembly other next : Assembly} {piece pieceToo : Markup}
    (same : assembly.Reordered other) (samePiece : piece.Reordered pieceToo) (conforms : piece.Conforms)
    (added : assembly.add? piece = some next) :
    ∃ nextToo, other.add? pieceToo = some nextToo ∧ next.Reordered nextToo := by
  cases samePiece with
  | opening name closed perm =>
      exact same.opening perm conforms added
  | same =>
      cases piece with
      | opening name written closed =>
          exact same.opening (.refl _) conforms added
      | closing name =>
          exact same.closing added
      | run written =>
          have sameOpen : other.opened.isEmpty = assembly.opened.isEmpty := by
            rw [Bool.eq_iff_iff, List.isEmpty_iff_length_eq_zero, List.isEmpty_iff_length_eq_zero,
              same.opened.length_eq]
          simp only [Assembly.add?, sameOpen] at added ⊢
          split at added
          · rename_i noneOpen
            rw [if_pos noneOpen]
            split at added
            · rename_i blank
              cases added
              exact ⟨other, if_pos blank, same⟩
            · cases added
          · rename_i someOpen
            rw [if_neg someOpen]
            rcases Option.bind_eq_some_iff.mp added with ⟨characters, isText, addsText⟩
            rw [isText]
            exact same.addText? addsText
      | verbatim written =>
          exact same.addText? added
      | comment text =>
          cases added
          exact ⟨_, rfl, same.addMisc _⟩
      | instruction target value =>
          cases added
          exact ⟨_, rfl, same.addMisc _⟩

theorem Assembly.Reordered.foldlM {assembly other last : Assembly} {pieces others : List Markup}
    (same : assembly.Reordered other) (samePieces : List.Forall₂ Markup.Reordered pieces others)
    (conforms : ∀ piece ∈ pieces, piece.Conforms) (added : pieces.foldlM Assembly.add? assembly = some last) :
    ∃ lastToo, others.foldlM Assembly.add? other = some lastToo ∧ last.Reordered lastToo := by
  induction samePieces generalizing assembly other with
  | nil =>
      cases added
      exact ⟨other, rfl, same⟩
  | cons here _ ih =>
      have parts := List.forall_mem_cons.mp conforms
      rw [List.foldlM_cons] at added
      rcases Option.bind_eq_some_iff.mp added with ⟨next, first, rest⟩
      rcases same.add? here parts.1 first with ⟨nextToo, firstToo, sameNext⟩
      rcases ih sameNext parts.2 rest with ⟨lastToo, restToo, sameLast⟩
      refine ⟨lastToo, ?_, sameLast⟩
      rw [List.foldlM_cons]
      exact Option.bind_eq_some_iff.mpr ⟨nextToo, firstToo, restToo⟩

/-- Markup whose start tags conform is still read with what is written on them in another order, as a
document that is a reordering of the first. -/
theorem Document.exists_reordered_of_markup {pieces others : List Markup} {document : Document}
    (samePieces : List.Forall₂ Markup.Reordered pieces others) (conforms : ∀ piece ∈ pieces, piece.Conforms)
    (isRead : Document.ofMarkup? pieces = some document) :
    (∀ tag ∈ document.root.tags, tag.scope.Conforms) ∧
      ∃ other, Document.ofMarkup? others = some other ∧ document.Reordered other := by
  rcases Option.bind_eq_some_iff.mp isRead with ⟨last, added, finished⟩
  rcases Assembly.Reordered.empty.foldlM samePieces conforms added with ⟨lastToo, addedToo, same⟩
  rcases same.finish? finished with ⟨other, finishedToo, before, root, after⟩
  have tagsConform : ∀ tag ∈ document.rootContent.tags, tag.scope.Conforms :=
    root.forall_tags fun _ _ sameTag => sameTag.1
  rw [document.tags_rootContent] at tagsConform
  refine ⟨tagsConform, other, Option.bind_eq_some_iff.mpr ⟨lastToo, addedToo, finishedToo⟩, before, ?_, after⟩
  exact root.imp fun _ _ sameTag => sameTag.2

theorem Document.Reordered.size {document other : Document} (same : document.Reordered other) :
    other.size = document.size := by
  rw [Document.size, Document.size, same.before, same.after, ← other.size_rootContent,
    ← document.size_rootContent, same.root.size]

/-- A text is still read when what is written on its start tags is put in another order. -/
theorem Document.exists_reordered_of_read? {limit : Nat} {text textToo : String} {body bodyToo : List Char}
    {pieces piecesToo : List Markup} {document : Document}
    (afterProlog : Markup.afterProlog? text.toList = some body)
    (afterPrologToo : Markup.afterProlog? textToo.toList = some bodyToo)
    (cut : Markup.readAll? body = some pieces) (cutToo : Markup.readAll? bodyToo = some piecesToo)
    (samePieces : List.Forall₂ Markup.Reordered pieces piecesToo)
    (conforms : ∀ piece ∈ pieces, piece.Conforms) (isRead : Document.read? limit text = some document) :
    (∀ tag ∈ document.root.tags, tag.scope.Conforms) ∧
      ∃ other, Document.read? limit textToo = some other ∧ document.Reordered other := by
  have small := Document.size_le_of_read? isRead
  have assembled : Document.ofMarkup? pieces = some document := by
    unfold Document.read? at isRead
    rcases Option.bind_eq_some_iff.mp isRead with ⟨bodyRead, isBody, afterBody⟩
    rcases Option.bind_eq_some_iff.mp afterBody with ⟨piecesRead, arePieces, afterPieces⟩
    rcases Option.bind_eq_some_iff.mp afterPieces with ⟨found, isFound, bounded⟩
    rw [afterProlog] at isBody
    cases isBody
    rw [cut] at arePieces
    cases arePieces
    split at bounded
    · cases bounded
      exact isFound
    · cases bounded
  rcases Document.exists_reordered_of_markup samePieces conforms assembled with
    ⟨tagsConform, other, assembledToo, same⟩
  refine ⟨tagsConform, other, ?_, same⟩
  rw [← same.size] at small
  simp [Document.read?, afterPrologToo, cutToo, assembledToo, small]

end SamlGate.Xml
