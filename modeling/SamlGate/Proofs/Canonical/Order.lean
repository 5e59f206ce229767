import SamlGate.Canonical.StartTag

/-!
Lists that have been put in order.

Strings that are sorted and told apart occur once each. Sorting does not care whether the items are looked at
before or after they are rewritten, and sorting what is sorted changes nothing. Where no two items rank alike,
the sorted list is strictly ascending, and in whatever order the items come, it is the same.
-/

namespace SamlGate.Canonical

private theorem ascending_insertDistinct {added : String} {items : List String}
    (ascending : items.Pairwise (· < ·)) : (insertDistinct added items).Pairwise (· < ·) := by
  induction items with
  | nil =>
      exact List.pairwise_singleton _ _
  | cons first rest ih =>
      obtain ⟨least, ascendingRest⟩ := List.pairwise_cons.mp ascending
      unfold insertDistinct
      split
      · rename_i below
        refine List.pairwise_cons.mpr ⟨?_, ascending⟩
        intro item member
        rcases List.mem_cons.mp member with same | later
        · rw [same]
          exact below
        · exact String.lt_trans below (least item later)
      · rename_i notBelow
        split
        · exact ascending
        · rename_i different
          refine List.pairwise_cons.mpr ⟨?_, ih ascendingRest⟩
          intro item member
          rcases mem_insertDistinct.mp member with same | later
          · rw [same]
            by_cases above : first < added
            · exact above
            · exact absurd (String.le_antisymm (String.not_lt.mp above) (String.not_lt.mp notBelow)) different
          · exact least item later

theorem ascending_distinct (items : List String) : (distinct items).Pairwise (· < ·) := by
  induction items with
  | nil =>
      exact List.Pairwise.nil
  | cons first rest ih =>
      exact ascending_insertDistinct ih

theorem nodup_distinct (items : List String) : (distinct items).Nodup := by
  refine (ascending_distinct items).imp ?_
  rintro left right below rfl
  exact String.lt_irrefl left below

theorem distinct_congr {items others : List String} (same : ∀ item, item ∈ items ↔ item ∈ others) :
    distinct items = distinct others := by
  apply List.Perm.eq_of_pairwise _ (ascending_distinct items) (ascending_distinct others)
  · apply (List.perm_ext_iff_of_nodup (nodup_distinct items) (nodup_distinct others)).mpr
    intro item
    rw [mem_distinct, mem_distinct, same]
  · intro left right _ _ below above
    exact absurd above (String.lt_asymm below)

theorem arrange_map {α β : Type} (precedes : β → β → Bool) (rewrite : α → β) (items : List α) :
    arrange precedes (items.map rewrite) =
      (arrange (fun left right => precedes (rewrite left) (rewrite right)) items).map rewrite := by
  have inserted (added : α) (items : List α) :
      insertInOrder precedes (rewrite added) (items.map rewrite) =
        (insertInOrder (fun left right => precedes (rewrite left) (rewrite right)) added items).map
          rewrite := by
    induction items with
    | nil =>
        rfl
    | cons first rest ih =>
        rw [List.map_cons, insertInOrder, insertInOrder]
        split
        · rw [ih, List.map_cons]
        · rfl
  induction items with
  | nil =>
      rfl
  | cons first rest ih =>
      change insertInOrder precedes (rewrite first) (arrange precedes (rest.map rewrite)) = _
      rw [ih, inserted]
      rfl

/-! ### Sorted lists -/

section Sorted

variable {α : Type} {precedes : α → α → Bool}

/-- What puts items in order: none precedes another that precedes it, and neither is there a way round by a
third that precedes neither. -/
structure Ranks (precedes : α → α → Bool) : Prop where
  asymm : ∀ {left right}, precedes left right = true → precedes right left = false
  trans : ∀ {left middle right}, precedes left middle = false → precedes middle right = false →
    precedes left right = false

private theorem Ranks.pairwise_insertInOrder (ranks : Ranks precedes) {added : α} {items : List α}
    (sorted : items.Pairwise (fun left right => precedes right left = false)) :
    (insertInOrder precedes added items).Pairwise (fun left right => precedes right left = false) := by
  induction items with
  | nil =>
      exact List.pairwise_singleton _ _
  | cons first rest ih =>
      obtain ⟨least, sortedRest⟩ := List.pairwise_cons.mp sorted
      unfold insertInOrder
      split
      · rename_i before
        refine List.pairwise_cons.mpr ⟨?_, ih sortedRest⟩
        intro item member
        rcases List.mem_cons.mp ((perm_insertInOrder precedes added rest).mem_iff.mp member) with same | later
        · rw [same]
          exact ranks.asymm before
        · exact least item later
      · rename_i notBefore
        rw [Bool.not_eq_true] at notBefore
        refine List.pairwise_cons.mpr ⟨?_, sorted⟩
        intro item member
        rcases List.mem_cons.mp member with same | later
        · rw [same]
          exact notBefore
        · exact ranks.trans (least item later) notBefore

private theorem Ranks.pairwise_arrange (ranks : Ranks precedes) (items : List α) :
    (arrange precedes items).Pairwise (fun left right => precedes right left = false) := by
  induction items with
  | nil =>
      exact List.Pairwise.nil
  | cons first rest ih =>
      exact ranks.pairwise_insertInOrder ih

theorem arrange_of_pairwise {items : List α}
    (sorted : items.Pairwise (fun left right => precedes right left = false)) :
    arrange precedes items = items := by
  induction items with
  | nil =>
      rfl
  | cons first rest ih =>
      obtain ⟨least, sortedRest⟩ := List.pairwise_cons.mp sorted
      change insertInOrder precedes first (arrange precedes rest) = first :: rest
      rw [ih sortedRest]
      cases rest with
      | nil =>
          rfl
      | cons second rest =>
          rw [insertInOrder, if_neg]
          simp [least second List.mem_cons_self]

theorem Ranks.arrange_arrange (ranks : Ranks precedes) (items : List α) :
    arrange precedes (arrange precedes items) = arrange precedes items :=
  arrange_of_pairwise (ranks.pairwise_arrange items)

def Apart (precedes : α → α → Bool) (items : List α) : Prop :=
  items.Pairwise (fun left right => precedes left right = true ∨ precedes right left = true)

theorem Apart.perm {items others : List α} (apart : Apart precedes items) (perm : items.Perm others) :
    Apart precedes others :=
  (perm.pairwise_iff Or.symm).mp apart

theorem Ranks.ascending_arrange (ranks : Ranks precedes) {items : List α} (apart : Apart precedes items) :
    (arrange precedes items).Pairwise (fun left right => precedes left right = true) := by
  have apartToo := apart.perm (perm_arrange precedes items).symm
  apply (apartToo.and (ranks.pairwise_arrange items)).imp
  intro left right both
  cases both.1 with
  | inl before =>
      exact before
  | inr after =>
      rw [both.2] at after
      cases after

/-- Where no two items rank alike, the order in which they come does not show. -/
theorem Ranks.arrange_eq_of_perm (ranks : Ranks precedes) {items others : List α}
    (apart : Apart precedes items) (perm : items.Perm others) :
    arrange precedes items = arrange precedes others := by
  apply List.Perm.eq_of_pairwise _ (ranks.ascending_arrange apart)
    (ranks.ascending_arrange (apart.perm perm))
  · exact (perm_arrange precedes items).trans (perm.trans (perm_arrange precedes others).symm)
  · intro left right _ _ before after
    rw [ranks.asymm before] at after
    cases after

theorem exists_append_of_pairwise {follows : α → α → Prop} {items : List α} (has : α → Bool)
    (sorted : items.Pairwise follows)
    (passes : ∀ left right, follows left right → has right = true → has left = true) :
    ∃ front back, items = front ++ back ∧ (∀ item ∈ front, has item = true) ∧
      (∀ item ∈ back, has item = false) ∧ front.Pairwise follows ∧ back.Pairwise follows := by
  induction items with
  | nil =>
      exact ⟨[], [], rfl, nofun, nofun, .nil, .nil⟩
  | cons first rest ih =>
      have parts := List.pairwise_cons.mp sorted
      cases here : has first with
      | false =>
          refine ⟨[], first :: rest, rfl, nofun, ?_, .nil, sorted⟩
          intro item member
          rcases List.mem_cons.mp member with same | later
          · rw [same]
            exact here
          · apply Bool.eq_false_iff.mpr
            intro there
            rw [passes first item (parts.1 item later) there] at here
            cases here
      | true =>
          rcases ih parts.2 with ⟨front, back, same, frontHas, backHas, frontSorted, backSorted⟩
          subst same
          refine ⟨first :: front, back, rfl, List.forall_mem_cons.mpr ⟨here, frontHas⟩, backHas, ?_, backSorted⟩
          apply List.pairwise_cons.mpr
          exact ⟨fun item member => parts.1 item (List.mem_append_left _ member), frontSorted⟩

end Sorted

theorem lt_or_lt_of_ne {left right : String} (different : left ≠ right) : left < right ∨ right < left := by
  by_cases below : left < right
  · exact .inl below
  · right
    apply Classical.byContradiction
    intro notAbove
    exact different (String.le_antisymm (String.not_lt.mp notAbove) (String.not_lt.mp below))

theorem not_lt_empty (text : String) : ¬ text < "" :=
  List.not_lt_nil text.toList

/-! ### The orders on a start tag -/

theorem ranks_declaredBefore : Ranks declaredBefore where
  asymm := by
    intro left right before
    have below : left.nsPrefix < right.nsPrefix := of_decide_eq_true before
    exact decide_eq_false (String.lt_asymm below)
  trans := by
    intro left middle right notBefore notBeforeToo
    have above := String.not_lt.mp (of_decide_eq_false notBefore)
    have aboveToo := String.not_lt.mp (of_decide_eq_false notBeforeToo)
    exact decide_eq_false (String.not_lt.mpr (String.le_trans aboveToo above))

theorem ranks_precedes : Ranks Field.precedes where
  asymm := by
    intro left right before
    simp only [Field.precedes, Bool.or_eq_true, Bool.and_eq_true, decide_eq_true_eq, Bool.or_eq_false_iff,
      Bool.and_eq_false_imp, decide_eq_false_iff_not] at before ⊢
    rcases before with below | ⟨same, below⟩
    · refine ⟨String.lt_asymm below, ?_⟩
      intro same
      rw [same] at below
      exact absurd below (String.lt_irrefl _)
    · rw [same]
      exact ⟨String.lt_irrefl _, fun _ => String.lt_asymm below⟩
  trans := by
    intro left middle right notBefore notBeforeToo
    simp only [Field.precedes, Bool.or_eq_false_iff, Bool.and_eq_false_imp, decide_eq_true_eq,
      decide_eq_false_iff_not, String.not_lt] at notBefore notBeforeToo ⊢
    refine ⟨String.le_trans notBeforeToo.1 notBefore.1, ?_⟩
    intro same
    have sameMiddle : left.namespaceUri = middle.namespaceUri :=
      String.le_antisymm (same ▸ notBeforeToo.1) notBefore.1
    exact String.le_trans (notBeforeToo.2 (sameMiddle.symm.trans same)) (notBefore.2 sameMiddle)

end SamlGate.Canonical
