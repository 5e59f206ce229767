import Mathlib.Data.List.Chain
import SamlGate.Text.Mark

/-!
Marks of two characters, and the place where a text is split.

A text is split at the first occurrence of a mark, so that what stands before it can be read off again as
long as the mark occurs neither in it nor across its end. `Apart first second` says that two characters are
never neighbours in this order.
-/

namespace SamlGate.Text

def Apart (first second : Char) (text : List Char) : Prop :=
  text.IsChain (fun left right => ¬ (left = first ∧ right = second))

/-! ### Splitting -/

private theorem upToFrom_eq_some_of_first {mark passed before rest : List Char} (nonempty : mark ≠ [])
    (first : ∀ front back, before = front ++ back → back ≠ [] →
      after? mark (back ++ (mark ++ rest)) = none) :
    upToFrom mark passed (before ++ (mark ++ rest)) = some (passed.reverse ++ before, rest) := by
  induction before generalizing passed with
  | nil =>
      obtain ⟨expected, mark, rfl⟩ := List.exists_cons_of_ne_nil nonempty
      have matched : after? (expected :: mark) (expected :: (mark ++ rest)) = some rest :=
        after?_eq_some_iff.mpr rfl
      simp only [List.nil_append, List.cons_append, upToFrom, matched, List.append_nil]
  | cons next before ih =>
      have unmatched := first [] (next :: before) rfl (List.cons_ne_nil _ _)
      rw [List.cons_append] at unmatched
      rw [List.cons_append, upToFrom, unmatched]
      simp only
      rw [ih]
      · simp
      · intro front back same notEmpty
        exact first (next :: front) back (by rw [same, List.cons_append]) notEmpty

private theorem apart_of_upToFrom_eq_none {first second : Char} {passed text : List Char}
    (absent : upToFrom [first, second] passed text = none) : Apart first second text := by
  induction text generalizing passed with
  | nil =>
      exact .nil
  | cons next text ih =>
      unfold upToFrom at absent
      split at absent
      · cases absent
      · rename_i unmatched
        cases text with
        | nil =>
            exact .singleton _
        | cons second' text =>
            refine .cons_cons ?_ (ih absent)
            rintro ⟨rfl, rfl⟩
            simp [after?] at unmatched

theorem apart_of_occurs_eq_false {first second : Char} {text : List Char}
    (absent : occurs [first, second] text = false) : Apart first second text := by
  unfold occurs upTo? at absent
  exact apart_of_upToFrom_eq_none (by simpa using absent)

private theorem upToFrom_eq_none_of_apart {first second : Char} {passed text : List Char}
    (apart : Apart first second text) : upToFrom [first, second] passed text = none := by
  induction text generalizing passed with
  | nil =>
      rfl
  | cons next text ih =>
      have unmatched : after? [first, second] (next :: text) = none := by
        cases text with
        | nil =>
            simp [after?]
        | cons afterNext text =>
            by_cases begins : first = next
            · subst begins
              have notSecond : ¬ second = afterNext := fun same => apart.rel ⟨rfl, same.symm⟩
              simp [after?, notSecond]
            · simp [after?, begins]
      rw [upToFrom, unmatched]
      exact ih apart.tail

theorem occurs_eq_false_of_apart {first second : Char} {text : List Char}
    (apart : Apart first second text) : occurs [first, second] text = false := by
  unfold occurs upTo?
  rw [upToFrom_eq_none_of_apart apart]
  rfl

private theorem apart_of_upToFrom_eq_some {first second : Char} {passed text before rest : List Char}
    (found : upToFrom [first, second] passed text = some (before, rest)) :
    ∃ added, before = passed.reverse ++ added ∧ text = added ++ (first :: second :: rest) ∧
      Apart first second added := by
  induction text generalizing passed with
  | nil =>
      cases found
  | cons next text ih =>
      unfold upToFrom at found
      split at found
      · rename_i matched
        cases found
        exact ⟨[], by simp, by simpa using after?_eq_some_iff.mp matched, .nil⟩
      · rename_i unmatched
        obtain ⟨added, same, split, apart⟩ := ih found
        refine ⟨next :: added, by simp [same], by simp [split], ?_⟩
        cases added with
        | nil =>
            exact .singleton _
        | cons second' added =>
            refine .cons_cons ?_ apart
            rintro ⟨rfl, rfl⟩
            simp [split, after?] at unmatched

theorem apart_of_upTo?_eq_some {first second : Char} {text before rest : List Char}
    (found : upTo? [first, second] text = some (before, rest)) :
    text = before ++ (first :: second :: rest) ∧ Apart first second before := by
  obtain ⟨added, same, split, apart⟩ := apart_of_upToFrom_eq_some found
  simp only [List.reverse_nil, List.nil_append] at same
  subst same
  exact ⟨split, apart⟩

/-- A text whose characters are apart is split behind it. The mark must not begin inside and end outside. -/
theorem upTo?_append_of_apart {first second : Char} {before rest : List Char} (different : first ≠ second)
    (apart : Apart first second before) :
    upTo? [first, second] (before ++ (first :: second :: rest)) = some (before, rest) := by
  have split : upToFrom [first, second] [] (before ++ ([first, second] ++ rest)) =
      some ([].reverse ++ before, rest) := by
    refine upToFrom_eq_some_of_first (List.cons_ne_nil _ _) ?_
    intro front back same notEmpty
    subst same
    cases back with
    | nil =>
        exact absurd rfl notEmpty
    | cons next back =>
        cases back with
        | nil =>
            by_cases begins : first = next
            · subst begins
              simp [after?, different.symm]
            · simp [after?, begins]
        | cons afterNext back =>
            have neighbours : ¬ (next = first ∧ afterNext = second) := by
              have tail := (List.isChain_append.mp apart).2.1
              exact (List.isChain_cons_cons.mp tail).1
            by_cases begins : first = next
            · subst begins
              have apartNext : ¬ second = afterNext := fun same => neighbours ⟨rfl, same.symm⟩
              simp [after?, apartNext]
            · simp [after?, begins]
  simpa [upTo?] using split

/-- A text without a doubled character, and without it at its end, is split behind it at a mark that begins
with the doubled character. -/
theorem upTo?_append_of_apart_doubled {doubled last : Char} {before rest : List Char}
    (apart : Apart doubled doubled before) (ending : before.getLast? ≠ some doubled) :
    upTo? [doubled, doubled, last] (before ++ (doubled :: doubled :: last :: rest)) =
      some (before, rest) := by
  have split : upToFrom [doubled, doubled, last] [] (before ++ ([doubled, doubled, last] ++ rest)) =
      some ([].reverse ++ before, rest) := by
    refine upToFrom_eq_some_of_first (List.cons_ne_nil _ _) ?_
    intro front back same notEmpty
    subst same
    cases back with
    | nil =>
        exact absurd rfl notEmpty
    | cons next back =>
        by_cases begins : doubled = next
        · subst begins
          cases back with
          | nil =>
              simp at ending
          | cons afterNext back =>
              have neighbours : ¬ (doubled = doubled ∧ afterNext = doubled) :=
                (List.isChain_cons_cons.mp apart.right_of_append).1
              have apartNext : ¬ doubled = afterNext := fun same => neighbours ⟨rfl, same.symm⟩
              simp [after?, apartNext]
        · simp [after?, begins]
  simpa [upTo?] using split

theorem occurs_eq_false_of_not_mem {mark text : List Char} {character : Char} (inMark : character ∈ mark)
    (absent : character ∉ text) : occurs mark text = false := by
  unfold occurs
  cases found : upTo? mark text with
  | none =>
      rfl
  | some parts =>
      obtain ⟨before, rest⟩ := parts
      rw [upTo?_append found] at absent
      simp [inMark] at absent

end SamlGate.Text
