import SamlGate.Xml.Position

/-!
Sets of nodes of one document.

A set says of each position whether the node there belongs to it. `has` is the view that everything is
said in: each operation is pinned by what it does to `has`.

A set does not remember its document; it is used with the one that it was made for.
-/

namespace SamlGate.Xml

structure NodeSet where
  flags : Array Bool
  deriving DecidableEq, Repr

namespace NodeSet

def has (set : NodeSet) (position : Nat) : Bool :=
  set.flags[position]?.getD false

def select (document : Document) (keep : Nat → Node → Bool) : NodeSet :=
  ⟨(document.nodes.mapIdx keep).toArray⟩

def empty (document : Document) : NodeSet :=
  select document (fun _ _ => false)

def tree (document : Document) (site : Site) : NodeSet :=
  select document (fun position _ => site.position ≤ position && position < site.stop)

def treeWithoutComments (document : Document) (site : Site) : NodeSet :=
  select document
    (fun position node => site.position ≤ position && position < site.stop && !node.isComment)

def all (document : Document) : NodeSet :=
  tree document document.site

def allWithoutComments (document : Document) : NodeSet :=
  treeWithoutComments document document.site

def insert (set : NodeSet) (position : Nat) : NodeSet :=
  ⟨set.flags.setIfInBounds position true⟩

def remove (set : NodeSet) (site : Site) : NodeSet :=
  ⟨set.flags.mapIdx
    (fun position flag => flag && !(site.position ≤ position && position < site.stop))⟩

def withoutComments (set : NodeSet) (document : Document) : NodeSet :=
  select document (fun position node => set.has position && !node.isComment)

def positions (set : NodeSet) : List Nat :=
  (List.range set.flags.size).filter set.has

theorem has_select (document : Document) (keep : Nat → Node → Bool) (position : Nat) :
    (select document keep).has position = (document.nodes[position]?.map (keep position)).getD false := by
  simp [has, select]

theorem has_insert (set : NodeSet) (added position : Nat) (within : added < set.flags.size) :
    (set.insert added).has position = (decide (position = added) || set.has position) := by
  unfold has insert
  by_cases same : added = position
  · subst same
    simp [within]
  · simp [same, Ne.symm same]

theorem has_remove (set : NodeSet) (site : Site) (position : Nat) :
    (set.remove site).has position =
      (set.has position && !(site.position ≤ position && position < site.stop)) := by
  unfold has remove
  rw [Array.getElem?_mapIdx]
  cases set.flags[position]? <;> simp

theorem mem_positions (set : NodeSet) (position : Nat) :
    position ∈ set.positions ↔ set.has position = true := by
  unfold positions
  simp only [List.mem_filter, List.mem_range, and_iff_right_iff_imp]
  intro belongs
  unfold has at belongs
  by_cases within : position < set.flags.size
  · exact within
  · simp [Array.getElem?_eq_none (Nat.le_of_not_lt within)] at belongs

end NodeSet

end SamlGate.Xml
