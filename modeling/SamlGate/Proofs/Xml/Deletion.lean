import SamlGate.Proofs.Xml.Subtrees

/-!
Documents with one element deleted.

An element goes with all that it holds. The texts before and after it become one text, as touching texts are
in every document; everything else stays as it is and is only counted anew.
-/

namespace SamlGate.Xml

/-- A sequence that begins at `start`, less the element at `target`. -/
def Content.without (target start : Nat) : Content → Content
  | .done => .done
  | .leaf first rest =>
    if target = start + 1 then .joined first (rest.without target (start + 1))
    else .leaf first (rest.without target (start + 1))
  | .element tag inner rest =>
    if target = start then rest
    else if target < start + 1 + inner.size then .element tag (inner.without target (start + 1)) rest
    else .element tag inner (rest.without target (start + 1 + inner.size))

def Document.without (document : Document) (position : Nat) : Document :=
  { document with
    root :=
      { document.root with
        inner := document.root.inner.without position (document.rootPosition + 1) } }

section Has

variable {tag : Tag} {inner rest content : Content} {target start : Nat} {element : Element}

theorem Content.without_of_inner (has : inner.Has target (start + 1) element) :
    (Content.element tag inner rest).without target start =
      .element tag (inner.without target (start + 1)) rest := by
  have after := has.after
  rw [Content.without, if_neg (by omega), if_pos has.lt_stop]

theorem Content.without_of_rest (has : rest.Has target (start + 1 + inner.size) element) :
    (Content.element tag inner rest).without target start =
      .element tag inner (rest.without target (start + 1 + inner.size)) := by
  have after := has.after
  rw [Content.without, if_neg (by omega), if_neg (by omega)]

/-- What is deleted of a sequence is the element and nothing else: its tags and its text are left out where
they stood. -/
theorem Content.Has.without (has : content.Has target start element) :
    (∃ front back, content.tags = front ++ element.tags ++ back ∧
        (content.without target start).tags = front ++ back) ∧
      ∃ front back, content.text = front ++ element.inner.text ++ back ∧
        (content.without target start).text = front ++ back := by
  induction has using Content.Has.induct with
  | leaf first rest start has ih =>
      obtain ⟨⟨front, back, tags, left⟩, frontText, backText, text, leftText⟩ := ih
      have same : ((Content.leaf first rest).without target start).tags =
            (rest.without target (start + 1)).tags ∧
          ((Content.leaf first rest).without target start).text =
            (Content.leaf first (rest.without target (start + 1))).text := by
        rw [Content.without]
        split
        · exact ⟨Content.tags_joined _ _, Content.text_joined _ _⟩
        · exact ⟨rfl, rfl⟩
      refine ⟨⟨front, back, tags, same.1.trans left⟩,
        (Content.leaf first .done).text ++ frontText, backText, ?_, ?_⟩
      · rw [Content.text_leaf, text]
        simp
      · rw [same.2, Content.text_leaf, leftText]
        simp
  | here rest =>
      rw [Content.without, if_pos rfl]
      exact ⟨⟨[], rest.tags, rfl, rfl⟩, [], rest.text, rfl, rfl⟩
  | inside tag inner rest start has ih =>
      obtain ⟨⟨front, back, tags, left⟩, frontText, backText, text, leftText⟩ := ih
      rw [Content.without_of_inner has]
      refine ⟨⟨tag :: front, back ++ rest.tags, ?_, ?_⟩, frontText, backText ++ rest.text, ?_, ?_⟩
      · simp [Content.tags, tags]
      · simp [Content.tags, left]
      · simp [Content.text, text]
      · simp [Content.text, leftText]
  | behind tag inner rest start has ih =>
      obtain ⟨⟨front, back, tags, left⟩, frontText, backText, text, leftText⟩ := ih
      rw [Content.without_of_rest has]
      refine ⟨⟨tag :: inner.tags ++ front, back, ?_, ?_⟩, inner.text ++ frontText, backText, ?_, ?_⟩
      · simp [Content.tags, tags]
      · simp [Content.tags, left]
      · simp [Content.text, text]
      · simp [Content.text, leftText]

end Has

theorem Document.rootContent_without {document : Document} {position : Nat} {element : Element}
    (has : document.rootContent.Has position document.rootPosition element)
    (notRoot : position ≠ document.rootPosition) :
    (document.without position).rootContent =
      document.rootContent.without position document.rootPosition := by
  rcases Content.has_element_iff.mp has with ⟨here, _⟩ | below | behind
  · exact absurd here notRoot
  · exact (Content.without_of_inner below).symm
  · exact absurd behind Content.not_has_done

end SamlGate.Xml
