import SamlGate.Canonical.Serialization
import SamlGate.Proofs.Canonical.Declarations
import SamlGate.Proofs.Xml.Nesting
import SamlGate.Proofs.Xml.Subtrees

/-!
The rule of the nearest output ancestor.

Canonicalization is specified by what a start tag declares: a binding in scope that the nearest element
around it in the output does not have in scope, where exclusive canonicalization counts only elements that
use the prefix or any element if the prefix is listed. The start tags are not written by that rule. They are
written by what the start tags around have declared so far, and that this comes to the same is shown here:
what is declared so far is at every point what the nearest such element has in scope.
-/

namespace SamlGate.Canonical

open Xml

/-! ### The rule -/

structure TagSite where
  position : Nat
  tag : Tag
  deriving DecidableEq, Repr

/-- An element and the elements around it, innermost first. -/
structure Standing where
  here : TagSite
  around : List TagSite
  deriving DecidableEq, Repr

def standings (around : List TagSite) (start : Nat) : Content → List Standing
  | .done => []
  | .leaf _ rest => standings around (start + 1) rest
  | .element tag inner rest =>
    ⟨⟨start, tag⟩, around⟩ ::
      (standings (⟨start, tag⟩ :: around) (start + 1) inner
        ++ standings around (start + 1 + inner.size) rest)

def documentStandings (document : Document) : List Standing :=
  standings [] document.rootPosition document.rootContent

/-- The namespace that a prefix has in scope at a tag. The empty namespace is none. -/
def inScope? (tag : Tag) (nsPrefix : String) : Option String :=
  (tag.scope.lookup? nsPrefix).filter (fun uri => uri ≠ "")

/-- The name of the tag or the name of an attribute uses the prefix. A name of an attribute without a prefix
does not use the default namespace. -/
def Uses (tag : Tag) (nsPrefix : String) : Prop :=
  nsPrefix = tag.name.nsPrefix ∨
    nsPrefix ≠ "" ∧ nsPrefix ∈ tag.attributes.map (fun given => given.name.nsPrefix)

/-- Inclusive canonicalization looks at every prefix, exclusive canonicalization at those that the tag uses
and those that are listed. -/
def Form.Regards (form : Form) (tag : Tag) (nsPrefix : String) : Prop :=
  form.method.exclusive = true → Uses tag nsPrefix ∨ nsPrefix ∈ form.listed.map listedPrefix

instance (form : Form) (tag : Tag) (nsPrefix : String) : Decidable (form.Regards tag nsPrefix) :=
  inferInstanceAs (Decidable (_ → (_ ∨ _ ∧ _) ∨ _))

/-- The nearest element around that is shown and where the prefix is looked at. -/
def nearest? (form : Form) (shown : Nat → Bool) (around : List TagSite) (nsPrefix : String) : Option Tag :=
  (around.find? (fun site => shown site.position && decide (form.Regards site.tag nsPrefix))).map
    TagSite.tag

/-- The declarations that the rule asks for on the start tag of a shown element. -/
inductive Due (form : Form) (shown : Nat → Bool) (standing : Standing) : PrefixBinding → Prop
  | new {nsPrefix uri : String} (notBuiltIn : nsPrefix ≠ "xml")
      (regarded : form.Regards standing.here.tag nsPrefix)
      (has : inScope? standing.here.tag nsPrefix = some uri)
      (differs : ∀ outer, nearest? form shown standing.around nsPrefix = some outer →
        inScope? outer nsPrefix ≠ some uri) : Due form shown standing ⟨nsPrefix, uri⟩
  | takenBack {outer : Tag} {uri : String} (regarded : form.Regards standing.here.tag "")
      (hasNone : inScope? standing.here.tag "" = none)
      (near : nearest? form shown standing.around "" = some outer)
      (had : inScope? outer "" = some uri) : Due form shown standing ⟨"", ""⟩

/-! ### Prefixes that are looked at -/

theorem exclusive_regards_iff {form : Form} {tag : Tag} {nsPrefix : String}
    (exclusive : form.method.exclusive = true) :
    form.Regards tag nsPrefix ↔ Uses tag nsPrefix ∨ nsPrefix ∈ form.listed.map listedPrefix :=
  ⟨fun regards => regards exclusive, fun regarded _ => regarded⟩

private theorem regards_of_inclusive {form : Form} (inclusive : form.method.exclusive = false) (tag : Tag)
    (nsPrefix : String) : form.Regards tag nsPrefix := by
  intro exclusive
  rw [inclusive] at exclusive
  cases exclusive

private theorem mem_attributePrefixes {tag : Tag} {nsPrefix : String} (notBuiltIn : nsPrefix ≠ "xml") :
    nsPrefix ∈ attributePrefixes tag ↔
      nsPrefix ≠ "" ∧ nsPrefix ∈ tag.attributes.map (fun given => given.name.nsPrefix) := by
  unfold attributePrefixes
  rw [List.mem_filter]
  simp [notBuiltIn, and_comm]

theorem mem_candidates_iff {form : Form} {tag : Tag} {nsPrefix : String} (notBuiltIn : nsPrefix ≠ "xml") :
    nsPrefix ∈ form.candidates tag ↔
      form.Regards tag nsPrefix ∧
        (form.method.exclusive = false →
          nsPrefix = "" ∨ nsPrefix ∈ tag.scope.map PrefixBinding.nsPrefix) := by
  unfold Form.candidates
  cases mode : form.method.exclusive with
  | true =>
      rw [if_pos rfl, exclusive_regards_iff mode]
      simp [Uses, mem_attributePrefixes notBuiltIn, or_assoc]
  | false =>
      simp [regards_of_inclusive mode]

private theorem mem_candidates_of_bound {form : Form} {tag : Tag} {nsPrefix uri : String}
    (notBuiltIn : nsPrefix ≠ "xml") (regarded : form.Regards tag nsPrefix)
    (bound : tag.scope.lookup? nsPrefix = some uri) : nsPrefix ∈ form.candidates tag := by
  refine (mem_candidates_iff notBuiltIn).mpr ⟨regarded, fun _ => .inr ?_⟩
  by_contra missing
  rw [Scope.lookup?_eq_none_iff.mpr missing] at bound
  cases bound

private theorem exists_of_getD_ne {found : Option String} (notEmpty : found.getD "" ≠ "") :
    ∃ uri, found = some uri ∧ uri ≠ "" := by
  cases found with
  | none => exact absurd rfl notEmpty
  | some uri => exact ⟨uri, rfl, notEmpty⟩

private theorem mem_scope_of_inScope? {tag : Tag} {nsPrefix uri : String}
    (has : inScope? tag nsPrefix = some uri) :
    tag.scope.lookup? nsPrefix = some uri ∧ uri ≠ "" := by
  obtain ⟨bound, notEmpty⟩ := Option.filter_eq_some_iff.mp has
  exact ⟨bound, by simpa using notEmpty⟩

/-- A prefix other than the default cannot be taken back, so what is not in scope was not around either. -/
theorem inScope?_eq_none_of_extends {tag outer : Tag} {nsPrefix : String} (conforms : tag.scope.Conforms)
    (extends_ : tag.scope.Extends outer.scope) (notDefault : nsPrefix ≠ "")
    (hasNone : inScope? tag nsPrefix = none) : inScope? outer nsPrefix = none := by
  cases had : inScope? outer nsPrefix with
  | none => rfl
  | some uri =>
      obtain ⟨boundAround, _⟩ := mem_scope_of_inScope? had
      have boundHere := extends_ nsPrefix (Option.isSome_of_mem boundAround)
      obtain ⟨other, bound⟩ := Option.isSome_iff_exists.mp boundHere
      have notEmpty := conforms.ne_empty_of_lookup? notDefault bound
      simp [inScope?, bound, notEmpty] at hasNone

/-! ### What has been declared -/

/-- What is declared so far is what the nearest element has in scope. -/
def Knows (form : Form) (shown : Nat → Bool) (around : List TagSite) (declared : Scope) : Prop :=
  ∀ nsPrefix, nsPrefix ≠ "xml" →
    (declared.lookup? nsPrefix).filter (fun uri => uri ≠ "") =
      (nearest? form shown around nsPrefix).bind (fun outer => inScope? outer nsPrefix)

section Rule

variable {form : Form} {shown : Nat → Bool} {around : List TagSite} {declared : Scope} {tag : Tag}
  {start : Nat}

private theorem nearest?_cons (site : TagSite) (nsPrefix : String) :
    nearest? form shown (site :: around) nsPrefix =
      if shown site.position = true ∧ form.Regards site.tag nsPrefix then some site.tag
      else nearest? form shown around nsPrefix := by
  unfold nearest?
  by_cases found : shown site.position = true ∧ form.Regards site.tag nsPrefix
  · rw [if_pos found, List.find?_cons_of_pos (by simpa using found)]
    rfl
  · rw [if_neg found, List.find?_cons_of_neg (by simpa using found)]

theorem mem_declarations_iff {binding : PrefixBinding} :
    binding ∈ form.declarations declared tag ↔
      binding.nsPrefix ∈ form.candidates tag ∧ binding.nsPrefix ≠ "xml" ∧
        declaration? declared tag.scope binding.nsPrefix = some binding := by
  unfold Form.declarations
  rw [List.mem_filterMap]
  constructor
  · intro listed
    obtain ⟨nsPrefix, member, found⟩ := listed
    obtain ⟨candidate, notBuiltIn⟩ := List.mem_filter.mp member
    have same := (declaration?_eq_some found).1
    subst same
    exact ⟨mem_distinct.mp candidate, by simpa using notBuiltIn, found⟩
  · intro conditions
    obtain ⟨candidate, notBuiltIn, found⟩ := conditions
    refine ⟨binding.nsPrefix, List.mem_filter.mpr ⟨mem_distinct.mpr candidate, ?_⟩, found⟩
    simpa using notBuiltIn

private theorem mem_declarations_iff_due (conforms : tag.scope.Conforms)
    (knows : Knows form shown around declared) {binding : PrefixBinding} :
    binding ∈ form.declarations declared tag ↔ Due form shown ⟨⟨start, tag⟩, around⟩ binding := by
  have inForce (nsPrefix : String) : inForce? tag.scope nsPrefix = inScope? tag nsPrefix :=
    inForce?_eq conforms nsPrefix
  rw [mem_declarations_iff]
  constructor
  · intro conditions
    obtain ⟨candidate, notBuiltIn, found⟩ := conditions
    have regarded := ((mem_candidates_iff notBuiltIn).mp candidate).1
    have known := knows _ notBuiltIn
    unfold declaration? at found
    rw [inForce] at found
    split at found
    · rename_i uri has
      split at found
      · cases found
      · rename_i notDeclared
        obtain ⟨bindingPrefix, bindingUri⟩ := binding
        cases found
        refine .new notBuiltIn regarded has ?_
        intro outer near same
        rw [near, Option.bind_some, same] at known
        exact notDeclared (Option.filter_eq_some_iff.mp known).1
    · rename_i hasNone
      split at found
      · rename_i takenBack
        obtain ⟨isDefault, wasDeclared⟩ := takenBack
        cases found
        obtain ⟨uri, bound, notEmpty⟩ := exists_of_getD_ne wasDeclared
        rw [bound, Option.filter_some, if_pos (by simpa using notEmpty)] at known
        obtain ⟨outer, near, had⟩ := Option.bind_eq_some_iff.mp known.symm
        exact .takenBack regarded hasNone near had
      · cases found
  · intro due
    cases due with
    | @new nsPrefix uri notBuiltIn regarded has differs =>
        obtain ⟨bound, notEmpty⟩ := mem_scope_of_inScope? has
        have notDeclared : declared.lookup? nsPrefix ≠ some uri := by
          intro isDeclared
          have known := knows _ notBuiltIn
          rw [isDeclared, Option.filter_some, if_pos (by simpa using notEmpty)] at known
          obtain ⟨outer, near, same⟩ := Option.bind_eq_some_iff.mp known.symm
          exact differs outer near same
        refine ⟨mem_candidates_of_bound notBuiltIn regarded bound, notBuiltIn, ?_⟩
        unfold declaration?
        rw [inForce, show inScope? tag nsPrefix = some uri from has]
        exact if_neg notDeclared
    | @takenBack outer uri regarded hasNone near had =>
        have known := knows "" (by decide)
        rw [near, Option.bind_some, had] at known
        obtain ⟨bound, notEmpty⟩ := Option.filter_eq_some_iff.mp known
        refine ⟨(mem_candidates_iff (by decide)).mpr ⟨regarded, fun _ => .inl rfl⟩, by decide, ?_⟩
        unfold declaration?
        rw [inForce, show inScope? tag "" = none from hasNone]
        simpa [bound] using notEmpty

/-- A prefix that is looked at is declared, behind the start tag of an element, as the element has it in
scope. A prefix that it has not in scope was not declared before either, except for the default, which is
taken back. -/
theorem lookup?_inside_of_regarded (conforms : tag.scope.Conforms)
    (extends_ : ∀ site ∈ around, tag.scope.Extends site.tag.scope)
    (knows : Knows form shown around declared) {nsPrefix : String} (notBuiltIn : nsPrefix ≠ "xml")
    (regarded : form.Regards tag nsPrefix) :
    (Scope.lookup? (form.declarations declared tag ++ declared) nsPrefix).filter (fun uri => uri ≠ "") =
      inScope? tag nsPrefix := by
  have inForce : inForce? tag.scope nsPrefix = inScope? tag nsPrefix := inForce?_eq conforms nsPrefix
  cases has : inScope? tag nsPrefix with
  | some uri =>
      rw [has] at inForce
      obtain ⟨bound, notEmpty⟩ := mem_scope_of_inScope? has
      have candidate := mem_candidates_of_bound notBuiltIn regarded bound
      rw [(lookup?_declarations candidate notBuiltIn).1 uri inForce]
      simpa using notEmpty
  | none =>
      rw [has] at inForce
      by_cases isDefault : nsPrefix = ""
      · subst isDefault
        have candidate : "" ∈ form.candidates tag :=
          (mem_candidates_iff notBuiltIn).mpr ⟨regarded, fun _ => .inl rfl⟩
        have empty := (@lookup?_declarations form declared tag "" candidate notBuiltIn).2 inForce rfl
        cases bound : Scope.lookup? (form.declarations declared tag ++ declared) "" with
        | none => rfl
        | some uri =>
            rw [bound] at empty
            simpa using empty
      · -- Nothing is declared here, so what is known around must be nothing as well.
        have notDue : declaration? declared tag.scope nsPrefix = none := by
          unfold declaration?
          rw [inForce]
          simp [isDefault]
        have same : Scope.lookup? (form.declarations declared tag ++ declared) nsPrefix =
            declared.lookup? nsPrefix := by
          rw [lookup?_append_declarations form declared tag nsPrefix notBuiltIn, notDue]
          simp
        rw [same, knows nsPrefix notBuiltIn]
        cases near : nearest? form shown around nsPrefix with
        | none => rfl
        | some outer =>
            obtain ⟨site, found, isOuter⟩ := Option.map_eq_some_iff.mp near
            subst isOuter
            exact inScope?_eq_none_of_extends conforms (extends_ site (List.mem_of_find?_eq_some found))
              isDefault has

theorem Knows.inside (knows : Knows form shown around declared) (conforms : tag.scope.Conforms)
    (extends_ : ∀ site ∈ around, tag.scope.Extends site.tag.scope) (here : shown start = true) :
    Knows form shown (⟨start, tag⟩ :: around) (form.declarations declared tag ++ declared) := by
  intro nsPrefix notBuiltIn
  rw [nearest?_cons]
  by_cases regarded : form.Regards tag nsPrefix
  · rw [if_pos ⟨here, regarded⟩, Option.bind_some]
    exact lookup?_inside_of_regarded conforms extends_ knows notBuiltIn regarded
  · have notCandidate : nsPrefix ∉ form.candidates tag := fun candidate =>
      regarded ((mem_candidates_iff notBuiltIn).mp candidate).1
    rw [if_neg (fun both => regarded both.2), ← knows nsPrefix notBuiltIn,
      lookup?_append_declarations form declared tag nsPrefix notBuiltIn, if_neg notCandidate]

theorem Knows.hidden (knows : Knows form shown around declared) (here : shown start = false) :
    Knows form shown (⟨start, tag⟩ :: around) declared := by
  intro nsPrefix notBuiltIn
  have notShown : ¬ (shown start = true ∧ form.Regards tag nsPrefix) := by
    simp [here]
  rw [nearest?_cons, if_neg notShown]
  exact knows nsPrefix notBuiltIn

end Rule

/-! ### Start tags and elements -/

def Piece.opening? : Piece → Option (Nat × StartTag)
  | .opening position tag => some (position, tag)
  | _ => none

def openings (pieces : List Piece) : List (Nat × StartTag) :=
  pieces.filterMap Piece.opening?

/-- The start tag is that of the element and declares what the rule asks for, each prefix once. -/
structure FollowsRule (form : Form) (shown : Nat → Bool) (standing : Standing)
    (opening : Nat × StartTag) : Prop where
  position : opening.1 = standing.here.position
  name : opening.2.name = standing.here.tag.name.written
  declarations : ∀ binding, binding ∈ opening.2.declarations ↔ Due form shown standing binding
  once : (opening.2.declarations.map PrefixBinding.nsPrefix).Nodup

theorem openings_append (front back : List Piece) :
    openings (front ++ back) = openings front ++ openings back :=
  List.filterMap_append

theorem openings_leafPieces (form : Form) (first : Leaf) : openings (form.leafPieces first) = [] := by
  cases first with
  | text characters => rfl
  | misc item =>
      by_cases kept : form.keeps item = true
      · simp [Form.leafPieces, kept, openings, Piece.opening?]
      · simp [Form.leafPieces, kept, openings]

theorem openings_miscPieces (form : Form) (shown : Nat → Bool) (beforeRoot : Bool) (start : Nat)
    (items : List Misc) : openings (form.miscPieces shown beforeRoot start items) = [] := by
  induction items generalizing start with
  | nil => rfl
  | cons item items ih =>
      rw [Form.miscPieces, openings_append, ih, List.append_nil]
      split
      · cases beforeRoot with
        | true => rfl
        | false => rfl
      · rfl

section Elements

variable {form : Form} {shown : Nat → Bool} {surroundings : Surroundings} {start : Nat} {tag : Tag}
  {inner rest : Content}

theorem openings_element (here : shown start = true) :
    openings (form.contentPieces shown surroundings start (.element tag inner rest)) =
      (start, form.startTag surroundings tag) ::
        (openings (form.contentPieces shown
            (surroundings.inside tag (some (form.startTag surroundings tag))) (start + 1) inner) ++
          openings (form.contentPieces shown surroundings (start + 1 + inner.size) rest)) := by
  simp [Form.contentPieces, here, openings, Piece.opening?, List.filterMap_cons]

theorem openings_hidden_element (here : shown start = false) :
    openings (form.contentPieces shown surroundings start (.element tag inner rest)) =
      openings (form.contentPieces shown (surroundings.inside tag none) (start + 1) inner) ++
        openings (form.contentPieces shown surroundings (start + 1 + inner.size) rest) := by
  simp [Form.contentPieces, here, openings]

end Elements

/-- The start tags of a sequence follow the rule, if what is declared around it is known. -/
theorem openings_contentPieces {form : Form} {shown : Nat → Bool} {around : List TagSite}
    {surroundings : Surroundings} {start : Nat} {content : Content} {outer : Scope}
    (conforms : ∀ tag ∈ content.tags, tag.scope.Conforms) (nested : content.Nested outer)
    (extends_ : ∀ site ∈ around, outer.Extends site.tag.scope)
    (knows : Knows form shown around surroundings.declared) :
    List.Forall₂ (FollowsRule form shown)
      ((standings around start content).filter (fun standing => shown standing.here.position))
      (openings (form.contentPieces shown surroundings start content)) := by
  -- `Knows` goes into every element: a shown one adds its declarations, one that is not shown adds none.
  induction content generalizing around surroundings start outer with
  | done =>
      exact .nil
  | leaf first rest ih =>
      have noTags : openings (if shown start = true then form.leafPieces first else []) = [] := by
        split
        · exact openings_leafPieces form first
        · rfl
      rw [Form.contentPieces, openings_append, noTags, List.nil_append, standings]
      exact ih conforms nested extends_ knows
  | element tag inner rest ihInner ihRest =>
      obtain ⟨tagConforms, tagsConform⟩ := List.forall_mem_cons.mp conforms
      obtain ⟨innerConforms, restConforms⟩ := List.forall_mem_append.mp tagsConform
      obtain ⟨tagExtends, innerNested, restNested⟩ := nested
      have extendsAround : ∀ site ∈ around, tag.scope.Extends site.tag.scope := fun site member =>
        tagExtends.trans (extends_ site member)
      have extendsInside : ∀ site ∈ (⟨start, tag⟩ :: around : List TagSite),
          tag.scope.Extends site.tag.scope :=
        List.forall_mem_cons.mpr ⟨.refl _, extendsAround⟩
      have restFollows := @ihRest around surroundings (start + 1 + inner.size) outer restConforms restNested
        extends_ knows
      rw [standings]
      cases here : shown start with
      | true =>
          have innerFollows := @ihInner _ (surroundings.inside tag (some (form.startTag surroundings tag)))
            (start + 1) _ innerConforms innerNested extendsInside
            (knows.inside tagConforms extendsAround here)
          have first : FollowsRule form shown ⟨⟨start, tag⟩, around⟩
              (start, form.startTag surroundings tag) :=
            ⟨rfl, rfl, fun _ => mem_declarations_iff_due tagConforms knows, nodup_declarations _ _ _⟩
          rw [openings_element here, List.filter_cons, if_pos here, List.filter_append]
          exact .cons first (List.rel_append innerFollows restFollows)
      | false =>
          have innerFollows := @ihInner _ (surroundings.inside tag none) (start + 1) _ innerConforms
            innerNested extendsInside (knows.hidden here)
          rw [openings_hidden_element here, List.filter_cons, if_neg (by simp [here]), List.filter_append]
          exact List.rel_append innerFollows restFollows

/-- In canonical text of a document that conforms to the rules of namespaces, whichever nodes are shown, the
start tags are those of the elements that are shown, in document order, and each declares exactly what the
nearest output ancestor asks for. -/
theorem startTags_follow_nearest_ancestor {limit : Nat} {text : String} {document : Document}
    (isRead : Document.read? limit text = some document)
    (conforms : ∀ tag ∈ document.root.tags, tag.scope.Conforms) (form : Form) (set : Option NodeSet) :
    List.Forall₂ (FollowsRule form (shownBy set))
      ((documentStandings document).filter (fun standing => shownBy set standing.here.position))
      (openings (form.pieces set.isSome (shownBy set) document)) := by
  obtain ⟨rootExtends, innerNested⟩ := Document.nested_of_read? isRead
  have rootConforms : ∀ tag ∈ document.rootContent.tags, tag.scope.Conforms := by
    rw [document.tags_rootContent]
    exact conforms
  have nothingKnown : Knows form (shownBy set) [] (Surroundings.outermost set.isSome).declared :=
    fun _ _ => rfl
  have follows := @openings_contentPieces form (shownBy set) [] (.outermost set.isSome) document.rootPosition
    document.rootContent [] rootConforms ⟨rootExtends, innerNested, trivial⟩ (by simp) nothingKnown
  rw [Form.pieces, openings_append, openings_append, openings_miscPieces, openings_miscPieces,
    List.nil_append, List.append_nil]
  exact follows

/-- The default namespace of the outer element is taken back on the inner one, though the element between
them is not shown. -/
theorem startTags_follow_nearest_ancestor_taken_back :
    ∃ document set,
      Document.read? 4 "<a xmlns='u' xmlns:p='v'><p:b><c xmlns=''/></p:b></a>" = some document ∧
        List.Forall₂ (FollowsRule ⟨⟨true, false⟩, []⟩ (shownBy (some set)))
          ((documentStandings document).filter
            (fun standing => shownBy (some set) standing.here.position))
          (openings (Form.pieces ⟨⟨true, false⟩, []⟩ true (shownBy (some set)) document)) ∧
        Form.text ⟨⟨true, false⟩, []⟩ document (some set) =
          "<a xmlns=\"u\"><c xmlns=\"\"></c></a>" := by
  have checked : (Document.read? 4 "<a xmlns='u' xmlns:p='v'><p:b><c xmlns=''/></p:b></a>").any
      (fun document => (∀ tag ∈ document.root.tags, tag.scope.Conforms) ∧
        Form.text ⟨⟨true, false⟩, []⟩ document
          (some (NodeSet.select document (fun position _ => position ≠ 2))) =
            "<a xmlns=\"u\"><c xmlns=\"\"></c></a>") = true := by
    decide +kernel
  obtain ⟨document, isRead, passes⟩ := (Option.any_eq_true _ _).mp checked
  obtain ⟨conforms, written⟩ := of_decide_eq_true passes
  exact ⟨document, _, isRead, startTags_follow_nearest_ancestor isRead conforms _ _, written⟩

end SamlGate.Canonical
