import SamlGate.Proofs.Canonical.Enumeration
import SamlGate.Proofs.Canonical.PlainText
import SamlGate.Proofs.Xml.Reordering

/-!
Canonical text does not show the order of the source.

What is written on the start tags of a document may be put in another order, and the list of prefixes may name
them in another order or again. What is in force at a tag stays the same, and so do the attributes that it
takes over: of each name there is one in a tag, so the nearest one is found whatever the order. All of it is
sorted before it is written, and no two things that are sorted rank alike.
-/

namespace SamlGate.Canonical

open Xml

/-! ### Attributes that are taken over -/

theorem mem_nearest_iff {taken : List String} {attributes : List Attribute} {given : Attribute} :
    given ∈ nearest taken attributes ↔ given.name.localName ∉ taken ∧
      attributes.find? (fun other => other.name.localName = given.name.localName) = some given := by
  induction attributes generalizing taken with
  | nil =>
      simp [nearest]
  | cons first rest ih =>
      unfold nearest
      by_cases known : first.name.localName ∈ taken
      · rw [if_pos known, ih]
        apply and_congr_right
        intro untaken
        have different : first.name.localName ≠ given.name.localName := by
          intro same
          exact untaken (same ▸ known)
        rw [List.find?_cons_of_neg (by simpa using different)]
      · rw [if_neg known, List.mem_cons, ih, List.mem_cons, not_or]
        by_cases same : first.name.localName = given.name.localName
        · rw [List.find?_cons_of_pos (by simpa using same)]
          constructor
          · intro either
            cases either with
            | inl isFirst =>
                rw [isFirst]
                exact ⟨known, rfl⟩
            | inr later =>
                exact absurd same.symm later.1.1
          · intro both
            exact .inl (Option.some.inj both.2).symm
        · rw [List.find?_cons_of_neg (by simpa using same)]
          constructor
          · intro either
            cases either with
            | inl isFirst =>
                rw [isFirst] at same
                exact absurd rfl same
            | inr later =>
                exact ⟨later.1.2, later.2⟩
          · intro both
            exact .inr ⟨⟨fun isFirst => same isFirst.symm, both.1⟩, both.2⟩

private theorem nodup_xmlAttributes {tag : Tag} (valid : tag.Valid) :
    ((xmlAttributes tag).map (fun given => given.name.localName)).Nodup := by
  apply List.Nodup.of_map (fun localName => (some xmlNamespace, localName))
  have means : (xmlAttributes tag).map Attribute.meaning =
      ((xmlAttributes tag).map (fun given => given.name.localName)).map
        (fun localName => (some xmlNamespace, localName)) := by
    rw [List.map_map]
    apply List.map_congr_left
    intro given member
    have inNamespace : given.namespaceUri = some xmlNamespace := by
      simpa using (List.mem_filter.mp member).2
    rw [Attribute.meaning, inNamespace]
    rfl
  rw [← means]
  exact valid.distinct.sublist (List.filter_sublist.map _)

section Tags

variable {tag other : Tag} {around aroundToo : List Tag}

private theorem xmlAttributes_perm (same : tag.Reordered other) :
    (xmlAttributes other).Perm (xmlAttributes tag) :=
  same.attributes.filter _

private theorem find?_flatMap_xmlAttributes (same : List.Forall₂ Tag.Reordered around aroundToo)
    (valid : ∀ outer ∈ around, outer.Valid) (localName : String) :
    (aroundToo.flatMap xmlAttributes).find? (fun given => given.name.localName = localName) =
      (around.flatMap xmlAttributes).find? (fun given => given.name.localName = localName) := by
  induction same with
  | nil =>
      rfl
  | cons here _ ih =>
      have parts := List.forall_mem_cons.mp valid
      have first := find?_eq_of_perm (nodup_xmlAttributes parts.1) (xmlAttributes_perm here) localName
      rw [List.flatMap_cons, List.flatMap_cons, List.find?_append, List.find?_append, first, ih parts.2]

private theorem takenOver_perm (same : tag.Reordered other)
    (sameAround : List.Forall₂ Tag.Reordered around aroundToo)
    (valid : ∀ outer ∈ around, outer.Valid) : (takenOver other aroundToo).Perm (takenOver tag around) := by
  apply List.Perm.map
  have own : ((xmlAttributes other).map (fun given => given.name.localName)).Perm
      ((xmlAttributes tag).map (fun given => given.name.localName)) :=
    (xmlAttributes_perm same).map _
  apply (List.perm_ext_iff_of_nodup (nodup_nearest _ _).of_map (nodup_nearest _ _).of_map).mpr
  intro given
  rw [mem_nearest_iff, mem_nearest_iff, own.mem_iff, find?_flatMap_xmlAttributes sameAround valid]

end Tags

/-! ### Start tags -/

structure Surroundings.Reordered (surroundings others : Surroundings) : Prop where
  subset : others.subset = surroundings.subset
  declared : others.declared = surroundings.declared
  ancestors : List.Forall₂ Tag.Reordered surroundings.ancestors others.ancestors
  held : others.held = surroundings.held
  valid : ∀ outer ∈ surroundings.ancestors, outer.Valid

section StartTags

variable {method : Method} {listed listedToo : List String} {tag other : Tag}
  {surroundings others : Surroundings}

theorem Surroundings.Reordered.inside (around : surroundings.Reordered others) (same : tag.Reordered other)
    (valid : tag.Valid) (output : Option StartTag) :
    (surroundings.inside tag output).Reordered (others.inside other output) where
  subset := around.subset
  declared := congrArg (_ ++ ·) around.declared
  ancestors := .cons same around.ancestors
  held := rfl
  valid := List.forall_mem_cons.mpr ⟨valid, around.valid⟩

private theorem completed_perm {form formToo : Form} (sameMethod : formToo.method = form.method)
    (same : tag.Reordered other) (around : surroundings.Reordered others) :
    (completed formToo others other).attributes.Perm (completed form surroundings tag).attributes := by
  unfold completed Form.takesOver
  rw [sameMethod, around.subset, around.held]
  split
  · exact same.attributes.append (takenOver_perm same around.ancestors around.valid)
  · exact same.attributes

private theorem mem_candidates_congr (sameList : ∀ entry, entry ∈ listed ↔ entry ∈ listedToo)
    (same : tag.Reordered other) (nsPrefix : String) :
    nsPrefix ∈ Form.candidates ⟨method, listedToo⟩ other ↔ nsPrefix ∈ Form.candidates ⟨method, listed⟩ tag := by
  have attributes : nsPrefix ∈ attributePrefixes other ↔ nsPrefix ∈ attributePrefixes tag :=
    ((same.attributes.map (fun given => given.name.nsPrefix)).filter _).mem_iff
  have prefixes : nsPrefix ∈ listedToo.map listedPrefix ↔ nsPrefix ∈ listed.map listedPrefix := by
    simp only [List.mem_map, sameList]
  have bound : nsPrefix ∈ other.scope.map PrefixBinding.nsPrefix ↔
      nsPrefix ∈ tag.scope.map PrefixBinding.nsPrefix :=
    (same.scope.map PrefixBinding.nsPrefix).mem_iff
  unfold Form.candidates
  split
  · simp only [List.mem_append, List.mem_cons, same.name, attributes, prefixes]
  · simp only [List.mem_cons, bound]

private theorem startTag_reordered (sameList : ∀ entry, entry ∈ listed ↔ entry ∈ listedToo)
    (valid : tag.Valid)
    (conforms : tag.scope.Conforms) (same : tag.Reordered other) (around : surroundings.Reordered others) :
    Form.startTag ⟨method, listedToo⟩ others other = Form.startTag ⟨method, listed⟩ surroundings tag := by
  have declarations : Form.declarations ⟨method, listedToo⟩ others.declared other =
      Form.declarations ⟨method, listed⟩ surroundings.declared tag := by
    have inForce : inForce? other.scope = inForce? tag.scope := by
      funext nsPrefix
      rw [inForce?_eq conforms, inForce?_eq (conforms.perm same.scope),
        Scope.lookup?_eq_of_perm conforms.distinct same.scope]
    apply eq_of_ascending (ascending_declarations _ _ _) (ascending_declarations _ _ _)
    intro binding
    rw [mem_declarations_iff, mem_declarations_iff, mem_candidates_congr sameList same]
    unfold declaration?
    rw [inForce, around.declared]
  have fields : Form.fields ⟨method, listedToo⟩ others other =
      Form.fields ⟨method, listed⟩ surroundings tag := by
    rw [fields_eq_arrange, fields_eq_arrange]
    symm
    apply ranks_precedes.arrange_eq_of_perm (apart_fields valid conforms around.valid)
    exact ((@completed_perm _ _ _ _ ⟨method, listed⟩ ⟨method, listedToo⟩ rfl same around).map _).symm
  unfold Form.startTag
  rw [declarations, fields, same.name]

end StartTags

/-! ### Documents -/

private theorem contentPieces_reordered {method : Method} {listed listedToo : List String}
    {shown : Nat → Bool}
    {surroundings others : Surroundings} {start : Nat} {content other : Content}
    (sameList : ∀ entry, entry ∈ listed ↔ entry ∈ listedToo)
    (alike : content.Matches Tag.Reordered other) (valid : ∀ tag ∈ content.tags, tag.Valid)
    (conforms : ∀ tag ∈ content.tags, tag.scope.Conforms) (around : surroundings.Reordered others) :
    Form.contentPieces ⟨method, listedToo⟩ shown others start other =
      Form.contentPieces ⟨method, listed⟩ shown surroundings start content := by
  induction alike generalizing surroundings others start with
  | done =>
      rfl
  | leaf first _ ih =>
      have leaves : Form.leafPieces ⟨method, listedToo⟩ first = Form.leafPieces ⟨method, listed⟩ first := rfl
      rw [Form.contentPieces, Form.contentPieces, leaves, ih valid conforms around]
  | @element tag otherTag inner innerToo rest restToo here below _ ihInner ihRest =>
      have tagsValid := List.forall_mem_cons.mp valid
      have belowValid := List.forall_mem_append.mp tagsValid.2
      have tagsConform := List.forall_mem_cons.mp conforms
      have belowConform := List.forall_mem_append.mp tagsConform.2
      have inside := fun output => @ihInner _ _ (start + 1) belowValid.1 belowConform.1
        (around.inside here tagsValid.1 output)
      have startTags := @startTag_reordered method listed listedToo tag otherTag surroundings others sameList
        tagsValid.1 tagsConform.1 here around
      rw [Form.contentPieces, Form.contentPieces, startTags, below.size, inside,
        ihRest belowValid.2 belowConform.2 around]

private theorem octets_reordered {document other : Document} {listed listedToo : List String}
    (sameList : ∀ entry, entry ∈ listed ↔ entry ∈ listedToo) (valid : document.Valid)
    (conforms : ∀ tag ∈ document.root.tags, tag.scope.Conforms) (same : document.Reordered other)
    (method : Method) (set : Option NodeSet) :
    Form.octets ⟨method, listedToo⟩ other set = Form.octets ⟨method, listed⟩ document set := by
  rw [← document.tags_rootContent] at conforms
  have position : other.rootPosition = document.rootPosition := by
    rw [Document.rootPosition, Document.rootPosition, same.before]
  have size : other.root.size = document.root.size := by
    rw [← other.size_rootContent, ← document.size_rootContent, same.root.size]
  have outermost : (Surroundings.outermost set.isSome).Reordered (.outermost set.isSome) := by
    refine ⟨rfl, rfl, .nil, rfl, ?_⟩
    intro outer isAncestor
    cases isAncestor
  have root := @contentPieces_reordered method listed listedToo (shownBy set) _ _ document.rootPosition _ _
    sameList same.root valid.rootContent.tags conforms outermost
  have miscs : Form.miscPieces ⟨method, listedToo⟩ = Form.miscPieces ⟨method, listed⟩ :=
    miscPieces_congr_comments rfl
  unfold Document.rootContent at root
  unfold Form.octets Form.text Form.pieces
  rw [miscs, same.before, same.after, position, size, root]

/-- Of two documents that conform and differ only in the order on their start tags, with lists that name the
same prefixes, the octets are the same, in whatever order the prefixes of each start tag are gone through.
On every start tag the declarations and the attributes are in order. -/
theorem canonical_octets_show_no_order {limit : Nat} {text : String} {document other : Document}
    {listed listedToo : List String} (isRead : Document.read? limit text = some document)
    (conforms : ∀ tag ∈ document.root.tags, tag.scope.Conforms) (same : document.Reordered other)
    (sameList : ∀ entry, entry ∈ listed ↔ entry ∈ listedToo) (method : Method) (set : Option NodeSet) :
    (∀ octets, Form.MayGive ⟨method, listed⟩ document set octets ↔
        octets = Form.octets ⟨method, listed⟩ document set) ∧
      (∀ octets, Form.MayGive ⟨method, listedToo⟩ other set octets ↔
        octets = Form.octets ⟨method, listed⟩ document set) ∧
      ∀ opening ∈ openings (Form.pieces ⟨method, listed⟩ set.isSome (shownBy set) document),
        opening.2.InOrder := by
  have valid := Document.valid_of_read? isRead
  refine ⟨fun octets => mayGive_iff, ?_, ?_⟩
  · intro octets
    rw [mayGive_iff, octets_reordered sameList valid conforms same]
  · exact inOrder_of_mem_openings_pieces valid conforms _ _ _

/-- An element takes over an `xml` attribute from one that is not shown. -/
theorem canonical_octets_show_no_order_taken_over :
    ∃ document other set,
      Document.read? 3 "<a xml:lang='en' xmlns:q='w'><p:b z='1' xmlns='u' xmlns:p='v' p:y='2' c='3'/></a>" =
          some document ∧
        Document.read? 3 "<a xmlns:q='w' xml:lang='en'><p:b xmlns:p='v' c='3' p:y='2' xmlns='u' z='1'/></a>" =
          some other ∧
        (∀ octets, Form.MayGive ⟨⟨false, false⟩, ["p", "q"]⟩ document (some set) octets ↔
          octets = Form.octets ⟨⟨false, false⟩, ["p", "q"]⟩ document (some set)) ∧
        (∀ octets, Form.MayGive ⟨⟨false, false⟩, ["q", "p", "q"]⟩ other (some set) octets ↔
          octets = Form.octets ⟨⟨false, false⟩, ["p", "q"]⟩ document (some set)) ∧
        (∀ opening ∈ openings (Form.pieces ⟨⟨false, false⟩, ["p", "q"]⟩ true (shownBy (some set)) document),
          opening.2.InOrder) ∧
        Form.text ⟨⟨false, false⟩, ["p", "q"]⟩ document (some set) =
          "<p:b xmlns=\"u\" xmlns:p=\"v\" xmlns:q=\"w\" c=\"3\" z=\"1\" xml:lang=\"en\" p:y=\"2\"></p:b>" := by
  have checked : (Document.read? 3
      "<a xml:lang='en' xmlns:q='w'><p:b z='1' xmlns='u' xmlns:p='v' p:y='2' c='3'/></a>").any
      (fun document => Form.text ⟨⟨false, false⟩, ["p", "q"]⟩ document
        (some (NodeSet.select document (fun position _ => position = 2))) =
          "<p:b xmlns=\"u\" xmlns:p=\"v\" xmlns:q=\"w\" c=\"3\" z=\"1\" xml:lang=\"en\" p:y=\"2\"></p:b>") = true := by
    decide +kernel
  rcases (Option.any_eq_true _ _).mp checked with ⟨document, isRead, written⟩
  have cut : Markup.readAll?
      "<a xml:lang='en' xmlns:q='w'><p:b z='1' xmlns='u' xmlns:p='v' p:y='2' c='3'/></a>".toList =
        some [.opening ⟨"", "a"⟩ [⟨⟨"xml", "lang"⟩, "en"⟩, ⟨⟨"xmlns", "q"⟩, "w"⟩] false,
          .opening ⟨"p", "b"⟩ [⟨⟨"", "z"⟩, "1"⟩, ⟨⟨"", "xmlns"⟩, "u"⟩, ⟨⟨"xmlns", "p"⟩, "v"⟩,
            ⟨⟨"p", "y"⟩, "2"⟩, ⟨⟨"", "c"⟩, "3"⟩] true,
          .closing ⟨"", "a"⟩] := by
    decide +kernel
  have cutToo : Markup.readAll?
      "<a xmlns:q='w' xml:lang='en'><p:b xmlns:p='v' c='3' p:y='2' xmlns='u' z='1'/></a>".toList =
        some [.opening ⟨"", "a"⟩ [⟨⟨"xmlns", "q"⟩, "w"⟩, ⟨⟨"xml", "lang"⟩, "en"⟩] false,
          .opening ⟨"p", "b"⟩ [⟨⟨"xmlns", "p"⟩, "v"⟩, ⟨⟨"", "c"⟩, "3"⟩, ⟨⟨"p", "y"⟩, "2"⟩,
            ⟨⟨"", "xmlns"⟩, "u"⟩, ⟨⟨"", "z"⟩, "1"⟩] true,
          .closing ⟨"", "a"⟩] := by
    decide +kernel
  have afterPrologToo : Markup.afterProlog?
      "<a xmlns:q='w' xml:lang='en'><p:b xmlns:p='v' c='3' p:y='2' xmlns='u' z='1'/></a>".toList =
        some "<a xmlns:q='w' xml:lang='en'><p:b xmlns:p='v' c='3' p:y='2' xmlns='u' z='1'/></a>".toList := by
    decide +kernel
  rcases Document.exists_reordered_of_read? (by decide +kernel) afterPrologToo cut cutToo
      (.cons (.opening _ _ (by decide)) (.cons (.opening _ _ (by decide)) (.cons (.same _) .nil)))
      (by decide) isRead with ⟨conforms, other, isReadToo, same⟩
  have sameList : ∀ entry, entry ∈ ["p", "q"] ↔ entry ∈ ["q", "p", "q"] := by
    intro entry
    simp [or_comm, or_left_comm]
  have holds := canonical_octets_show_no_order isRead conforms same sameList ⟨false, false⟩
    (some (NodeSet.select document (fun position _ => position = 2)))
  exact ⟨document, other, _, isRead, isReadToo, holds.1, holds.2.1, holds.2.2, of_decide_eq_true written⟩

end SamlGate.Canonical
