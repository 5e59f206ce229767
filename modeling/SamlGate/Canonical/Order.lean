/-!
Putting lists in order.

`arrange` sorts by insertion and keeps equal elements in the order given. `distinct` sorts strings and
drops repetitions. Strings are compared character by character, by code point, which is also the order of
their octets.
-/

namespace SamlGate.Canonical

/-- Puts an element in front of the first that does not precede it. -/
def insertInOrder {α : Type} (precedes : α → α → Bool) (added : α) : List α → List α
  | [] => [added]
  | first :: rest =>
    if precedes first added then first :: insertInOrder precedes added rest
    else added :: first :: rest

def arrange {α : Type} (precedes : α → α → Bool) (items : List α) : List α :=
  items.foldr (insertInOrder precedes) []

def insertDistinct (added : String) : List String → List String
  | [] => [added]
  | first :: rest =>
    if added < first then added :: first :: rest
    else if added = first then first :: rest
    else first :: insertDistinct added rest

/-- The strings in strictly ascending order, each once. -/
def distinct (items : List String) : List String :=
  items.foldr insertDistinct []

theorem perm_insertInOrder {α : Type} (precedes : α → α → Bool) (added : α) (items : List α) :
    (insertInOrder precedes added items).Perm (added :: items) := by
  induction items with
  | nil => exact List.Perm.refl _
  | cons first rest ih =>
    unfold insertInOrder
    split
    · exact (ih.cons first).trans (List.Perm.swap added first rest)
    · exact List.Perm.refl _

theorem perm_arrange {α : Type} (precedes : α → α → Bool) (items : List α) :
    (arrange precedes items).Perm items := by
  induction items with
  | nil => exact List.Perm.refl _
  | cons first rest ih =>
    exact (perm_insertInOrder precedes first (arrange precedes rest)).trans (ih.cons first)

theorem mem_insertDistinct {added item : String} {items : List String} :
    item ∈ insertDistinct added items ↔ item = added ∨ item ∈ items := by
  induction items with
  | nil => simp [insertDistinct]
  | cons first rest ih =>
    unfold insertDistinct
    split
    · simp
    · split
      · rename_i same
        subst same
        simp
      · simp only [List.mem_cons, ih]
        constructor
        · rintro (here | here | here) <;> simp [here]
        · rintro (here | here | here) <;> simp [here]

theorem mem_distinct {item : String} {items : List String} : item ∈ distinct items ↔ item ∈ items := by
  induction items with
  | nil => simp [distinct]
  | cons first rest ih =>
    change item ∈ insertDistinct first (distinct rest) ↔ item ∈ first :: rest
    rw [mem_insertDistinct, ih, List.mem_cons]

end SamlGate.Canonical
