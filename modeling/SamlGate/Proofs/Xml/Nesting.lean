import SamlGate.Proofs.Xml.Content
import SamlGate.Proofs.Xml.Scope

/-!
Scopes are nested as elements are.

A declaration binds a prefix anew and cannot unbind one, so inside an element every prefix is bound that is
bound around it. A tag takes its scope from the element that is open when it is read, and that element is the
one that will hold it.
-/

namespace SamlGate.Xml

/-- Every prefix that the outer scope binds is bound. -/
def Scope.Extends (scope outer : Scope) : Prop :=
  ∀ nsPrefix, (outer.lookup? nsPrefix).isSome → (scope.lookup? nsPrefix).isSome

theorem Scope.Extends.refl (scope : Scope) : scope.Extends scope :=
  fun _ => id

theorem Scope.Extends.trans {scope middle outer : Scope} (inner : scope.Extends middle)
    (around : middle.Extends outer) : scope.Extends outer :=
  fun nsPrefix bound => inner nsPrefix (around nsPrefix bound)

private theorem Scope.extends_within (own outer : Scope) : (Scope.within own outer).Extends outer := by
  intro nsPrefix bound
  rw [Scope.lookup?_within, Scope.lookup?_append]
  simp [bound]

private theorem Tag.extends_of_ofWritten? {outer : Scope} {name : QName} {written : List WrittenAttribute}
    {tag : Tag} (isRead : Tag.ofWritten? outer name written = some tag) : tag.scope.Extends outer := by
  unfold Tag.ofWritten? at isRead
  obtain ⟨own, _, afterScope⟩ := Option.bind_eq_some_iff.mp isRead
  obtain ⟨namespaceUri, _, afterName⟩ := Option.bind_eq_some_iff.mp afterScope
  obtain ⟨attributes, _, checked⟩ := Option.bind_eq_some_iff.mp afterName
  split at checked
  · cases checked
    exact Scope.extends_within own outer
  · cases checked

/-- Each tag of a sequence extends the scope of the element that holds it, which is `outer` for the tags of
the sequence itself. -/
def Content.Nested (outer : Scope) : Content → Prop
  | .done => True
  | .leaf _ rest => rest.Nested outer
  | .element tag inner rest => tag.scope.Extends outer ∧ inner.Nested tag.scope ∧ rest.Nested outer

theorem Content.nested_withText {outer : Scope} {rest : Content} (characters : List Char)
    (nested : rest.Nested outer) : (rest.withText characters).Nested outer := by
  unfold Content.withText Content.joined
  split
  · exact nested
  · split
    · exact nested
    · exact nested

def Element.Nested (outer : Scope) (element : Element) : Prop :=
  element.tag.scope.Extends outer ∧ element.inner.Nested element.tag.scope

private theorem nested_foldl_push {outer : Scope} {held : List (Leaf ⊕ Element)} {rest : Content}
    (nested : ∀ element, .inr element ∈ held → element.Nested outer) (restNested : rest.Nested outer) :
    (held.foldl Content.push rest).Nested outer := by
  induction held generalizing rest with
  | nil =>
      exact restNested
  | cons item held ih =>
      apply ih
      · intro element member
        exact nested element (List.mem_cons_of_mem _ member)
      · cases item with
        | inl first =>
            exact restNested
        | inr element =>
            obtain ⟨extends_, inner⟩ := nested element List.mem_cons_self
            exact ⟨extends_, inner, restNested⟩

private theorem Content.nested_ofReversed {outer : Scope} {held : List (Leaf ⊕ Element)}
    (nested : ∀ element, .inr element ∈ held → element.Nested outer) :
    (Content.ofReversed held).Nested outer :=
  nested_foldl_push nested trivial

private theorem OpenElement.mem_held_add {opened : OpenElement} {item : Leaf ⊕ Element} {element : Element}
    (member : .inr element ∈ (opened.add item).held) : .inr element ∈ opened.held ∨ .inr element = item := by
  unfold OpenElement.add at member
  split at member
  · rename_i more characters earlier same
    rw [same]
    rcases List.mem_cons.mp member with impossible | later
    · cases impossible
    · exact .inl (List.mem_cons_of_mem _ later)
  · rcases List.mem_cons.mp member with here | later
    · exact .inr here
    · exact .inl later

namespace Assembly

/-- Each open element extends the one around it, and what it holds extends it. -/
def NestedOpen : List OpenElement → Prop
  | [] => True
  | innermost :: outer =>
    innermost.tag.scope.Extends (scope ⟨outer, [], none, []⟩) ∧
      (∀ element, .inr element ∈ innermost.held → element.Nested innermost.tag.scope) ∧ NestedOpen outer

structure Nested (assembly : Assembly) : Prop where
  opened : NestedOpen assembly.opened
  root : ∀ element ∈ assembly.root, element.Nested []

theorem Nested.empty : Assembly.empty.Nested :=
  ⟨trivial, nofun⟩

theorem NestedOpen.add {innermost : OpenElement} {outer : List OpenElement} {item : Leaf ⊕ Element}
    (nested : NestedOpen (innermost :: outer))
    (itemNested : ∀ element, .inr element = item → element.Nested innermost.tag.scope) :
    NestedOpen (innermost.add item :: outer) := by
  obtain ⟨extends_, held, around⟩ := nested
  refine ⟨by simpa using extends_, ?_, around⟩
  intro element member
  rw [OpenElement.add_tag]
  rcases OpenElement.mem_held_add member with earlier | added
  · exact held element earlier
  · exact itemNested element added

theorem Nested.addElement? {assembly next : Assembly} {element : Element} (nested : assembly.Nested)
    (elementNested : element.Nested assembly.scope) (added : assembly.addElement? element = some next) :
    next.Nested := by
  unfold Assembly.addElement? at added
  split at added
  · rename_i innermost outer same
    cases added
    have opened := nested.opened
    rw [same] at opened
    refine ⟨opened.add ?_, nested.root⟩
    intro other sameItem
    cases sameItem
    rw [Assembly.scope, same] at elementNested
    exact elementNested
  · split at added
    · rename_i noneOpen _
      cases added
      refine ⟨nested.opened, ?_⟩
      intro other isRoot
      cases isRoot
      rw [Assembly.scope, noneOpen] at elementNested
      exact elementNested
    · cases added

theorem Nested.addText? {assembly next : Assembly} {characters : List Char} (nested : assembly.Nested)
    (added : assembly.addText? characters = some next) : next.Nested := by
  unfold Assembly.addText? at added
  split at added
  · rename_i innermost outer same
    cases added
    have opened := nested.opened
    rw [same] at opened
    exact ⟨opened.add nofun, nested.root⟩
  · cases added

theorem Nested.addMisc {assembly : Assembly} (nested : assembly.Nested) (item : Misc) :
    (assembly.addMisc item).Nested := by
  unfold Assembly.addMisc
  split
  · rename_i innermost outer same
    have opened := nested.opened
    rw [same] at opened
    exact ⟨opened.add nofun, nested.root⟩
  · split
    · exact ⟨nested.opened, nested.root⟩
    · exact ⟨nested.opened, nested.root⟩

theorem Nested.add? {assembly next : Assembly} {piece : Markup} (nested : assembly.Nested)
    (added : assembly.add? piece = some next) : next.Nested := by
  cases piece with
  | opening name attributes closed =>
      obtain ⟨tag, isTag, afterTag⟩ := Option.bind_eq_some_iff.mp added
      have extends_ := Tag.extends_of_ofWritten? isTag
      have elementNested : Element.Nested assembly.scope { tag, inner := .done } := ⟨extends_, trivial⟩
      split at afterTag
      · exact nested.addElement? elementNested afterTag
      · cases afterTag
        exact ⟨⟨extends_, nofun, nested.opened⟩, nested.root⟩
  | closing name =>
      simp only [Assembly.add?] at added
      split at added
      · rename_i innermost outer same
        split at added
        · have opened := nested.opened
          rw [same] at opened
          obtain ⟨extends_, held, around⟩ := opened
          have outerNested : Nested { assembly with opened := outer } := ⟨around, nested.root⟩
          exact outerNested.addElement? ⟨extends_, Content.nested_ofReversed held⟩ added
        · cases added
      · cases added
  | run written =>
      simp only [Assembly.add?] at added
      split at added
      · split at added
        · cases added
          exact nested
        · cases added
      · obtain ⟨characters, _, addsText⟩ := Option.bind_eq_some_iff.mp added
        exact nested.addText? addsText
  | verbatim written =>
      exact nested.addText? added
  | comment text =>
      cases added
      exact nested.addMisc _
  | instruction target value =>
      cases added
      exact nested.addMisc _

theorem Nested.finish? {assembly : Assembly} {document : Document} (nested : assembly.Nested)
    (finished : assembly.finish? = some document) : document.root.Nested [] := by
  unfold Assembly.finish? at finished
  split at finished
  · rename_i root _ same
    cases finished
    exact nested.root root same
  · cases finished

end Assembly

/-- What every step of assembling preserves holds of the assembly that a document is read from. -/
theorem Assembly.exists_of_read? {holds : Assembly → Prop} (atFirst : holds .empty)
    (preserved : ∀ assembly piece next, holds assembly → assembly.add? piece = some next → holds next)
    {limit : Nat} {text : String} {document : Document}
    (isRead : Document.read? limit text = some document) :
    ∃ last : Assembly, holds last ∧ last.finish? = some document := by
  have run (pieces : List Markup) (assembly last : Assembly) (before : holds assembly)
      (added : pieces.foldlM Assembly.add? assembly = some last) : holds last := by
    induction pieces generalizing assembly with
    | nil =>
        cases added
        exact before
    | cons piece pieces ih =>
        rw [List.foldlM_cons] at added
        obtain ⟨next, first, rest⟩ := Option.bind_eq_some_iff.mp added
        exact ih next (preserved assembly piece next before first) rest
  obtain ⟨_, pieces, last, _, _, added, finished, _⟩ := Document.read?_eq_some_iff.mp isRead
  exact ⟨last, run pieces .empty last atFirst added, finished⟩

theorem Document.nested_of_read? {limit : Nat} {text : String} {document : Document}
    (isRead : Document.read? limit text = some document) : document.root.Nested [] := by
  have preserved (assembly : Assembly) (piece : Markup) (next : Assembly) (nested : assembly.Nested)
      (added : assembly.add? piece = some next) : next.Nested :=
    nested.add? added
  obtain ⟨last, nested, finished⟩ :=
    Assembly.exists_of_read? Assembly.Nested.empty preserved isRead
  exact nested.finish? finished

end SamlGate.Xml
