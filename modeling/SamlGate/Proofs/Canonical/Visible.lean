import SamlGate.Proofs.Canonical.Rereading
import SamlGate.Proofs.Xml.Sites

/-!
What is visible when comments and one child are left out.

A set of nodes that a reference selects lacks the comments, and perhaps the subtree of one child. Comments
have no text and hold nothing, so the elements that are left keep their names and their texts.
-/

namespace SamlGate.Canonical

open Xml

def Covers (site : Site) (position : Nat) : Prop :=
  site.position ≤ position ∧ position < site.stop

/-- All of a sequence that begins at `start` is shown, but comments and what is excepted. -/
def Shows (shown : Nat → Bool) (excepted : Nat → Prop) (start : Nat) (content : Content) : Prop :=
  ∀ index node, content.nodes[index]? = some node → node.isComment = false →
    ¬ excepted (start + index) → shown (start + index) = true

section Parts

variable {shown : Nat → Bool} {excepted : Nat → Prop} {start : Nat}

theorem Shows.leaf {first : Leaf} {rest : Content}
    (shows : Shows shown excepted start (.leaf first rest)) :
    ((Node.leaf first).isComment = false → ¬ excepted start → shown start = true) ∧
      Shows shown excepted (start + 1) rest := by
  refine ⟨shows 0 _ rfl, ?_⟩
  intro index node atIndex
  rw [Nat.add_right_comm]
  exact shows (index + 1) node atIndex

theorem Shows.element {tag : Tag} {inner rest : Content}
    (shows : Shows shown excepted start (.element tag inner rest)) :
    (¬ excepted start → shown start = true) ∧ Shows shown excepted (start + 1) inner ∧
      Shows shown excepted (start + 1 + inner.size) rest := by
  refine ⟨shows 0 _ rfl rfl, ?_, ?_⟩
  · intro index node atIndex
    rw [Nat.add_right_comm]
    refine shows (index + 1) node ?_
    rw [Content.nodes, List.getElem?_cons_succ]
    rw [List.getElem?_append_left (List.getElem?_eq_some_iff.mp atIndex).1]
    exact atIndex
  · intro index node atIndex
    rw [show start + 1 + inner.size + index = start + (inner.size + index + 1) by omega]
    refine shows (inner.size + index + 1) node ?_
    rw [Content.nodes, List.getElem?_cons_succ, List.getElem?_append_right (by simp)]
    simpa using atIndex

/-- Where nothing is excepted, only comments are missing, and they have no text. -/
theorem visible_of_shows {content : Content} (shows : Shows shown excepted start content)
    (none : ∀ position, start ≤ position → position < start + content.size → ¬ excepted position) :
    Hereditary shown start content ∧ (visible shown start content).text = content.text ∧
      (visible shown start content).sketches = content.sketches := by
  induction content generalizing start with
  | done =>
      exact ⟨trivial, rfl, rfl⟩
  | leaf first rest ih =>
      obtain ⟨showsFirst, showsRest⟩ := shows.leaf
      have noneHere := none start (Nat.le_refl _) (by simp [Content.size])
      obtain ⟨hereditary, text, elements⟩ := ih showsRest fun position after before =>
        none position (by omega) (by simp only [Content.size]; omega)
      by_cases here : shown start = true
      · refine ⟨hereditary, ?_, ?_⟩
        · rw [visible, if_pos here, Content.text_leaf, text]
          exact (Content.text_leaf first rest).symm
        · rw [visible, if_pos here]
          exact elements
      · rw [visible, if_neg here]
        refine ⟨hereditary, ?_, elements⟩
        cases first with
        | text characters =>
            exact absurd (showsFirst rfl noneHere) here
        | misc item =>
            simpa [Content.text] using text
  | element tag inner rest ihInner ihRest =>
      obtain ⟨showsFirst, showsInner, showsRest⟩ := shows.element
      have here := showsFirst (none start (Nat.le_refl _) (by simp [Content.size]))
      obtain ⟨hereditaryInner, textInner, elementsInner⟩ := ihInner showsInner fun position after before =>
        none position (by omega) (by simp only [Content.size]; omega)
      obtain ⟨hereditaryRest, textRest, elementsRest⟩ := ihRest showsRest fun position after before =>
        none position (by omega) (by simp only [Content.size]; omega)
      rw [visible, if_pos here]
      refine ⟨⟨fun hidden => ?_, hereditaryInner, hereditaryRest⟩, ?_, ?_⟩
      · rw [here] at hidden
        cases hidden
      · rw [Content.text, Content.text, textInner, textRest]
      · rw [Content.sketches, Content.sketches, textInner, elementsInner, elementsRest]

private theorem hereditary_of_hidden {content : Content} (hidden : Hidden shown start content) :
    Hereditary shown start content := by
  induction content generalizing start with
  | done =>
      trivial
  | leaf first rest ih =>
      exact ih hidden.leaf.2
  | element tag inner rest ihInner ihRest =>
      obtain ⟨_, hiddenInner, hiddenRest⟩ := hidden.element
      exact ⟨fun _ => hiddenInner, ihInner hiddenInner, ihRest hiddenRest⟩

/-- Where the first child is missing, nothing of it is shown and every later child is found as before. -/
theorem visible_of_missing_first {tag : Tag} {inner rest : Content}
    (shows : Shows shown (Covers ⟨start, .element ⟨tag, inner⟩⟩) start (.element tag inner rest))
    (missing : ∀ below, Covers ⟨start, .element ⟨tag, inner⟩⟩ below → shown below = false) :
    Hereditary shown start (.element tag inner rest) ∧
      briefs (visible shown start (.element tag inner rest)) = briefs rest := by
  have stop : (⟨start, .element ⟨tag, inner⟩⟩ : Site).stop = start + 1 + inner.size := by
    simp only [Site.stop, Node.size, Element.size]
    omega
  have hidden : shown start = false :=
    missing start ⟨Nat.le_refl _, by omega⟩
  have hiddenInner : Hidden shown (start + 1) inner := fun below after before =>
    missing below ⟨Nat.le_of_succ_le after, by omega⟩
  obtain ⟨_, _, showsRest⟩ := shows.element
  obtain ⟨hereditaryRest, _, elementsRest⟩ := visible_of_shows showsRest fun below after _ covered => by
    have := covered.2
    omega
  have notShown : ¬ shown start = true := by
    simp [hidden]
  refine ⟨⟨fun _ => hiddenInner, hereditary_of_hidden hiddenInner, hereditaryRest⟩, ?_⟩
  rw [visible, if_neg notShown, briefs_eq_of_sketches elementsRest]

theorem visible_of_missing {position : Nat} {element : Element} {content : Content}
    (child : ⟨position, .element element⟩ ∈ content.sites start)
    (shows : Shows shown (Covers ⟨position, .element element⟩) start content)
    (missing : ∀ below, Covers ⟨position, .element element⟩ below → shown below = false) :
    Hereditary shown start content ∧
      ∀ selects : (String × String) × List Char → Bool, selects (brief element) = false →
        (briefs (visible shown start content)).find? selects = (briefs content).find? selects := by
  induction content generalizing start with
  | done =>
      cases child
  | leaf first rest ih =>
      rcases List.mem_cons.mp child with same | later
      · cases same
      · obtain ⟨hereditary, found⟩ := ih later shows.leaf.2
        refine ⟨hereditary, fun selects other => ?_⟩
        rw [visible]
        split
        · exact found selects other
        · exact found selects other
  | element tag inner rest _ ih =>
      obtain ⟨showsFirst, showsInner, showsRest⟩ := shows.element
      rcases List.mem_cons.mp child with same | later
      · cases same
        obtain ⟨hereditary, elements⟩ := visible_of_missing_first shows missing
        refine ⟨hereditary, fun selects other => ?_⟩
        rw [elements]
        exact (List.find?_cons_of_neg (by simp [other])).symm
      · have after := (Content.getElem?_nodes_of_mem_sites later).1
        simp only at after
        have before (below : Nat) (inFront : below < start + 1 + inner.size) :
            ¬ Covers ⟨position, .element element⟩ below := by
          rintro ⟨covered, _⟩
          simp only at covered
          omega
        have here : shown start = true := showsFirst (before start (by omega))
        obtain ⟨hereditaryInner, text, _⟩ := visible_of_shows showsInner fun below _ within =>
          before below (by omega)
        obtain ⟨hereditaryRest, found⟩ := ih later showsRest
        refine ⟨⟨fun hidden => ?_, hereditaryInner, hereditaryRest⟩, fun selects other => ?_⟩
        · rw [here] at hidden
          cases hidden
        · have same : brief ⟨tag, visible shown (start + 1) inner⟩ = brief ⟨tag, inner⟩ := by
            simp only [brief, text]
          rw [visible, if_pos here]
          change List.find? selects (brief ⟨tag, visible shown (start + 1) inner⟩ :: briefs _) =
            List.find? selects (brief ⟨tag, inner⟩ :: briefs rest)
          rw [same, List.find?_cons, List.find?_cons, found selects other]

end Parts

end SamlGate.Canonical
