import SamlGate.Proofs.Canonical.Ascending

/-!
Start tags whose prefixes come in any order.

The prefixes that are looked at on a start tag make up a set, and a set may be gone through in any order, a
different one at each element. The declarations are sorted afterwards, and since a prefix is declared once the
order cannot be seen: whatever it is, the text is the canonical text.
-/

namespace SamlGate.Canonical

open Xml

/-- The order has the items in it, each once, as going through a set of them gives. -/
structure Enumerates (order items : List String) : Prop where
  nodup : order.Nodup
  same : ∀ item, item ∈ order ↔ item ∈ items

private theorem enumerates_distinct (items : List String) : Enumerates (distinct items) items :=
  ⟨nodup_distinct items, fun _ => mem_distinct⟩

/-- The start tag of a tag whose prefixes are gone through in the order given: what is to be declared is
gathered prefix by prefix and then sorted. -/
def Form.startTagFrom (form : Form) (order : List String) (surroundings : Surroundings) (tag : Tag) :
    StartTag where
  name := tag.name.written
  declarations := arrange declaredBefore
    ((order.filter (fun nsPrefix => nsPrefix ≠ "xml")).filterMap
      (declaration? surroundings.declared tag.scope))
  fields := form.fields surroundings tag

/-- What may be written for a sequence that begins at a position, if at each start tag the prefixes are gone
through in some order. -/
inductive Form.Writes (form : Form) (shown : Nat → Bool) : Surroundings → Nat → Content → List Piece → Prop
  | done {surroundings : Surroundings} {start : Nat} : Form.Writes form shown surroundings start .done []
  | leaf {surroundings : Surroundings} {start : Nat} (first : Leaf) {rest : Content} {behind : List Piece}
      (later : Form.Writes form shown surroundings (start + 1) rest behind) :
      Form.Writes form shown surroundings start (.leaf first rest)
        ((if shown start then form.leafPieces first else []) ++ behind)
  | shown {surroundings : Surroundings} {start : Nat} {tag : Tag} {inner rest : Content}
      {within behind : List Piece} (isShown : shown start = true) (order : List String)
      (enumerates : Enumerates order (form.candidates tag))
      (below : Form.Writes form shown
        (surroundings.inside tag (some (form.startTagFrom order surroundings tag))) (start + 1) inner within)
      (later : Form.Writes form shown surroundings (start + 1 + inner.size) rest behind) :
      Form.Writes form shown surroundings start (.element tag inner rest)
        (.opening start (form.startTagFrom order surroundings tag) :: within ++ [.closing tag.name.written]
          ++ behind)
  | hidden {surroundings : Surroundings} {start : Nat} {tag : Tag} {inner rest : Content}
      {within behind : List Piece} (isHidden : shown start = false)
      (below : Form.Writes form shown (surroundings.inside tag none) (start + 1) inner within)
      (later : Form.Writes form shown surroundings (start + 1 + inner.size) rest behind) :
      Form.Writes form shown surroundings start (.element tag inner rest) (within ++ behind)

def Form.MayGive (form : Form) (document : Document) (set : Option NodeSet) (octets : Octets) : Prop :=
  ∃ pieces, form.Writes (shownBy set) (.outermost set.isSome) document.rootPosition document.rootContent pieces ∧
    octets = Octets.ofText (String.ofList
      ((form.miscPieces (shownBy set) true 1 document.before ++ pieces
        ++ form.miscPieces (shownBy set) false (document.rootPosition + document.root.size)
          document.after).flatMap Piece.spelling))

section Enumeration

variable {form : Form} {shown : Nat → Bool} {surroundings : Surroundings} {start : Nat} {content : Content}

private theorem startTagFrom_eq {order : List String} {tag : Tag}
    (enumerates : Enumerates order (form.candidates tag)) :
    form.startTagFrom order surroundings tag = form.startTag surroundings tag := by
  have ascending := ascending_declarations form surroundings.declared tag
  have perm : order.Perm (distinct (form.candidates tag)) := by
    apply (List.perm_ext_iff_of_nodup enumerates.nodup (nodup_distinct _)).mpr
    intro item
    rw [enumerates.same, mem_distinct]
  have gathered := (perm.filter (fun nsPrefix => nsPrefix ≠ "xml")).filterMap
    (declaration? surroundings.declared tag.scope)
  have apart : Apart declaredBefore (form.declarations surroundings.declared tag) := by
    apply ascending.imp
    intro left right below
    exact .inl (decide_eq_true below)
  have sorted : arrange declaredBefore (form.declarations surroundings.declared tag) =
      form.declarations surroundings.declared tag := by
    apply arrange_of_pairwise
    apply ascending.imp
    intro left right below
    exact decide_eq_false (String.lt_asymm below)
  unfold Form.startTagFrom Form.startTag
  rw [ranks_declaredBefore.arrange_eq_of_perm (apart.perm gathered.symm) gathered]
  congr 1

private theorem Form.Writes.eq {pieces : List Piece}
    (writes : form.Writes shown surroundings start content pieces) :
    pieces = form.contentPieces shown surroundings start content := by
  induction writes with
  | done =>
      rfl
  | leaf first _ ih =>
      rw [Form.contentPieces, ih]
  | shown isShown order enumerates _ _ ihBelow ihLater =>
      rw [startTagFrom_eq enumerates] at ihBelow ⊢
      rw [Form.contentPieces, isShown, ihBelow, ihLater]
      rfl
  | hidden isHidden _ _ ihBelow ihLater =>
      rw [Form.contentPieces, isHidden, ihBelow, ihLater]
      rfl

private theorem writes_contentPieces (form : Form) (shown : Nat → Bool) (surroundings : Surroundings)
    (start : Nat)
    (content : Content) :
    form.Writes shown surroundings start content (form.contentPieces shown surroundings start content) := by
  induction content generalizing surroundings start with
  | done =>
      exact .done
  | leaf first rest ih =>
      exact .leaf first (ih _ _)
  | element tag inner rest ihInner ihRest =>
      have later := ihRest surroundings (start + 1 + inner.size)
      cases here : shown start with
      | true =>
          have enumerates := enumerates_distinct (form.candidates tag)
          have below := ihInner (surroundings.inside tag (some (form.startTag surroundings tag))) (start + 1)
          rw [← startTagFrom_eq enumerates] at below
          have writes := Form.Writes.shown here _ enumerates below later
          rw [startTagFrom_eq enumerates] at writes
          rw [Form.contentPieces, here]
          exact writes
      | false =>
          have below := ihInner (surroundings.inside tag none) (start + 1)
          rw [Form.contentPieces, here]
          exact .hidden here below later

end Enumeration

/-- Whatever the orders are, the octets are the canonical ones. -/
theorem mayGive_iff {form : Form} {document : Document} {set : Option NodeSet} {octets : Octets} :
    form.MayGive document set octets ↔ octets = form.octets document set := by
  constructor
  · intro may
    rcases may with ⟨pieces, writes, same⟩
    rw [same, writes.eq]
    rfl
  · intro same
    exact ⟨_, writes_contentPieces form (shownBy set) (.outermost set.isSome) document.rootPosition
      document.rootContent, same⟩

end SamlGate.Canonical
