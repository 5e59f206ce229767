import SamlGate.Proofs.Canonical.NearestAncestor

/-!
Start tags and the elements they are written for.

Every start tag in canonical text is written for an element that is shown, by what surrounds it: the elements
around, and whether the innermost of them is output. What is known of the tags of a document is known of each
of its elements and of those around it.
-/

namespace SamlGate.Canonical

open Xml

structure Surrounded (subset : Bool) (shown : Nat → Bool) (around : List TagSite)
    (surroundings : Surroundings) : Prop where
  subset : surroundings.subset = subset
  ancestors : surroundings.ancestors = around.map TagSite.tag
  held : surroundings.held = around.head?.any (fun parent => shown parent.position)

theorem Surrounded.inside {subset : Bool} {shown : Nat → Bool} {around : List TagSite}
    {surroundings : Surroundings} (surrounded : Surrounded subset shown around surroundings) {start : Nat}
    (tag : Tag) (output : Option StartTag) (here : output.isSome = shown start) :
    Surrounded subset shown (⟨start, tag⟩ :: around) (surroundings.inside tag output) := by
  refine ⟨surrounded.subset, ?_, here⟩
  change tag :: surroundings.ancestors = tag :: around.map TagSite.tag
  rw [surrounded.ancestors]

structure WrittenFor (form : Form) (subset : Bool) (shown : Nat → Bool) (standing : Standing)
    (opening : Nat × StartTag) : Prop where
  position : opening.1 = standing.here.position
  startTag : ∃ surroundings, Surrounded subset shown standing.around surroundings ∧
    opening.2 = form.startTag surroundings standing.here.tag

/-- Start tags are written for the elements that are shown, in document order. -/
theorem openings_writtenFor (form : Form) {subset : Bool} {shown : Nat → Bool} {around : List TagSite}
    {surroundings : Surroundings} (start : Nat) (content : Content)
    (surrounded : Surrounded subset shown around surroundings) :
    List.Forall₂ (WrittenFor form subset shown)
      ((standings around start content).filter (fun standing => shown standing.here.position))
      (openings (form.contentPieces shown surroundings start content)) := by
  -- `Surrounded` goes into every element, shown or not.
  induction content generalizing around surroundings start with
  | done => exact .nil
  | leaf first rest ih =>
      have noTags : openings (if shown start = true then form.leafPieces first else []) = [] := by
        split
        · exact openings_leafPieces form first
        · rfl
      rw [Form.contentPieces, openings_append, noTags, List.nil_append, standings]
      exact ih (start + 1) surrounded
  | element tag inner rest ihInner ihRest =>
      have behind := ihRest (start + 1 + inner.size) surrounded
      rw [standings]
      cases here : shown start with
      | true =>
          have below := ihInner (start + 1)
            (surrounded.inside tag (some (form.startTag surroundings tag)) here.symm)
          have first : WrittenFor form subset shown ⟨⟨start, tag⟩, around⟩
              (start, form.startTag surroundings tag) :=
            ⟨rfl, surroundings, surrounded, rfl⟩
          rw [openings_element here, List.filter_cons, if_pos here, List.filter_append]
          exact .cons first (List.rel_append below behind)
      | false =>
          have below := ihInner (start + 1) (surrounded.inside tag none here.symm)
          rw [openings_hidden_element here, List.filter_cons, if_neg (by simp [here]), List.filter_append]
          exact List.rel_append below behind

private theorem forall_mem_standings {property : Tag → Prop} {around : List TagSite} {start : Nat}
    {content : Content} (inside : ∀ tag ∈ content.tags, property tag)
    (outside : ∀ site ∈ around, property site.tag) :
    ∀ standing ∈ standings around start content,
      property standing.here.tag ∧ ∀ site ∈ standing.around, property site.tag := by
  induction content generalizing around start with
  | done => exact nofun
  | leaf first rest ih => exact ih inside outside
  | element tag inner rest ihInner ihRest =>
      obtain ⟨here, later⟩ := List.forall_mem_cons.mp inside
      obtain ⟨below, behind⟩ := List.forall_mem_append.mp later
      have outsideInner : ∀ site ∈ (⟨start, tag⟩ :: around : List TagSite), property site.tag :=
        List.forall_mem_cons.mpr ⟨here, outside⟩
      rw [standings]
      refine List.forall_mem_cons.mpr ⟨⟨here, outside⟩, ?_⟩
      exact List.forall_mem_append.mpr ⟨ihInner below outsideInner, ihRest behind outside⟩

/-! ### Whole documents -/

theorem openings_pieces_writtenFor (form : Form) (subset : Bool) (shown : Nat → Bool)
    (document : Document) :
    List.Forall₂ (WrittenFor form subset shown)
      ((documentStandings document).filter (fun standing => shown standing.here.position))
      (openings (form.pieces subset shown document)) := by
  have nothingAround : Surrounded subset shown [] (.outermost subset) :=
    ⟨rfl, rfl, rfl⟩
  rw [Form.pieces, openings_append, openings_append, openings_miscPieces, openings_miscPieces,
    List.nil_append, List.append_nil]
  exact openings_writtenFor form document.rootPosition document.rootContent nothingAround

theorem forall_mem_documentStandings {property : Tag → Prop} {document : Document}
    (holds : ∀ tag ∈ document.rootContent.tags, property tag) :
    ∀ standing ∈ documentStandings document,
      property standing.here.tag ∧ ∀ site ∈ standing.around, property site.tag := by
  apply forall_mem_standings holds
  intro site outside
  cases outside

end SamlGate.Canonical
