import SamlGate.Proofs.Canonical.Cursor
import SamlGate.Proofs.Canonical.StartTag
import SamlGate.Proofs.Xml.Sketch

/-!
What canonical text tells of a sequence.

Of the leaves it tells all but the comments that are left out; texts that come to touch are one text. Of the
tags it tells what reading makes of their start tags, which is alike and has the scope of what is declared. So
no reader sees a difference.
-/

namespace SamlGate.Canonical

open Xml

/-- The sequence with the leaves that are written, as they are read again. -/
def Form.told (form : Form) : Content → Content
  | .done => .done
  | .leaf (.text characters) rest => (form.told rest).withText characters.toList
  | .leaf (.misc item) rest =>
    if form.keeps item then .leaf (.misc (reread item)) (form.told rest) else form.told rest
  | .element tag inner rest => .element tag (form.told inner) (form.told rest)

/-- The sequence with its tags as they are read again, inside the scope `outer`. -/
def Form.restated (form : Form) (declared outer : Scope) : Content → Content
  | .done => .done
  | .leaf first rest => .leaf first (form.restated declared outer rest)
  | .element tag inner rest =>
    .element (form.restatedTag declared outer tag)
      (form.restated (form.declarations declared tag ++ declared) (rescoped form declared outer tag) inner)
      (form.restated declared outer rest)

/-! ### Leaves -/

section Told

variable (form : Form)

theorem text_told (content : Content) : (form.told content).text = content.text := by
  induction content with
  | done =>
      rfl
  | leaf first rest ih =>
      cases first with
      | text characters =>
          rw [Form.told, Content.text_withText, ih, Content.text]
      | misc item =>
          unfold Form.told
          split
          · exact ih
          · exact ih
  | element tag inner rest ihInner ihRest =>
      rw [Form.told, Content.text, Content.text, ihInner, ihRest]

theorem sketches_told (content : Content) : (form.told content).sketches = content.sketches := by
  induction content with
  | done =>
      rfl
  | leaf first rest ih =>
      cases first with
      | text characters =>
          rw [Form.told, Content.sketches_withText, ih, Content.sketches]
      | misc item =>
          unfold Form.told
          split
          · exact ih
          · exact ih
  | element tag inner rest ihInner ihRest =>
      rw [Form.told, Content.sketches, Content.sketches, text_told, ihInner, ihRest]

theorem tags_told (content : Content) : (form.told content).tags = content.tags := by
  induction content with
  | done =>
      rfl
  | leaf first rest ih =>
      cases first with
      | text characters =>
          rw [Form.told, Content.tags_withText, ih, Content.tags]
      | misc item =>
          unfold Form.told
          split
          · exact ih
          · exact ih
  | element tag inner rest ihInner ihRest =>
      rw [Form.told, Content.tags, Content.tags, ihInner, ihRest]

end Told

/-! ### Tags -/

section Restated

variable {form : Form} {declared outer : Scope}

theorem restated_withText (characters : List Char) (rest : Content) :
    form.restated declared outer (rest.withText characters) =
      (form.restated declared outer rest).withText characters := by
  unfold Content.withText
  split
  · rfl
  · cases rest with
    | done =>
        rfl
    | leaf first rest =>
        cases first with
        | text more =>
            rfl
        | misc item =>
            rfl
    | element tag inner rest =>
        rfl

/-- The scope that is read and the declarations in the output bind the same, and the scope conforms. -/
structure Agrees (scope declared : Scope) : Prop where
  same : ∀ nsPrefix, scope.lookup? nsPrefix = declared.lookup? nsPrefix
  conforms : scope.Conforms

theorem Agrees.inside {tag : Tag} (agrees : Agrees outer declared) (valid : tag.Valid) :
    Agrees (rescoped form declared outer tag) (form.declarations declared tag ++ declared) :=
  ⟨lookup?_rescoped agrees.same, (conforms_declarations valid).within agrees.conforms⟩

theorem matches_restated {content : Content} (valid : ∀ tag ∈ content.tags, tag.Valid)
    (faithful : ∀ tag ∈ content.tags, Faithful tag) (agrees : Agrees outer declared) :
    content.Matches Alike (form.restated declared outer content) := by
  induction content generalizing declared outer with
  | done =>
      exact .done
  | leaf first rest ih =>
      exact .leaf first (ih valid faithful agrees)
  | element tag inner rest ihInner ihRest =>
      obtain ⟨tagValid, tagsValid⟩ := List.forall_mem_cons.mp valid
      obtain ⟨innerValid, restValid⟩ := List.forall_mem_append.mp tagsValid
      obtain ⟨tagFaithful, tagsFaithful⟩ := List.forall_mem_cons.mp faithful
      obtain ⟨innerFaithful, restFaithful⟩ := List.forall_mem_append.mp tagsFaithful
      apply Content.Matches.element
      · exact alike_restatedTag tagValid tagFaithful agrees.same
      · exact ihInner innerValid innerFaithful (agrees.inside tagValid)
      · exact ihRest restValid restFaithful agrees

theorem conforms_restated {content : Content} (valid : ∀ tag ∈ content.tags, tag.Valid)
    (agrees : Agrees outer declared) :
    ∀ tag ∈ (form.restated declared outer content).tags, tag.scope.Conforms := by
  induction content generalizing declared outer with
  | done =>
      nofun
  | leaf first rest ih =>
      exact ih valid agrees
  | element tag inner rest ihInner ihRest =>
      obtain ⟨tagValid, tagsValid⟩ := List.forall_mem_cons.mp valid
      obtain ⟨innerValid, restValid⟩ := List.forall_mem_append.mp tagsValid
      have inside := @Agrees.inside form _ _ _ agrees tagValid
      exact List.forall_mem_cons.mpr ⟨inside.conforms,
        List.forall_mem_append.mpr ⟨ihInner innerValid inside, ihRest restValid agrees⟩⟩

theorem size_restated (content : Content) : (form.restated declared outer content).size = content.size := by
  induction content generalizing declared outer with
  | done =>
      rfl
  | leaf first rest ih =>
      rw [Form.restated, Content.size, Content.size, ih]
  | element tag inner rest ihInner ihRest =>
      rw [Form.restated, Content.size, Content.size, ihInner, ihRest]

end Restated

/-! ### Readers -/

theorem attribute?_eq_of_alike {tag other : Tag} (distinct : (tag.attributes.map Attribute.meaning).Nodup)
    (alike : Alike tag other) (name : String) : other.attribute? name = tag.attribute? name := by
  have distinctToo : (other.attributes.map Attribute.meaning).Nodup :=
    (alike.attributes.map Attribute.meaning).nodup_iff.mpr distinct
  refine Option.ext fun value => ?_
  rw [Tag.attribute?_eq_some_iff distinctToo, Tag.attribute?_eq_some_iff distinct]
  simp only [alike.attributes.mem_iff]

theorem sketch_eq_of_alike {tag : Tag} {other : Element} {content : Content} (valid : tag.Valid)
    (alike : Alike tag other.tag) (text : other.inner.text = content.text)
    (elements : other.inner.sketches = content.sketches) : other.sketch = Element.sketch ⟨tag, content⟩ := by
  have attributes : other.tag.attribute? = tag.attribute? :=
    funext (attribute?_eq_of_alike valid.distinct alike)
  unfold Element.sketch
  rw [alike.namespaceUri, alike.name, attributes, text, elements]

theorem sketches_eq_of_matches {content other : Content} (valid : ∀ tag ∈ content.tags, tag.Valid)
    (alike : content.Matches Alike other) : other.sketches = content.sketches := by
  induction alike with
  | done =>
      rfl
  | leaf first _ ih =>
      exact ih valid
  | @element tag otherTag inner innerToo rest restToo here below _ ihInner ihRest =>
      obtain ⟨tagValid, tagsValid⟩ := List.forall_mem_cons.mp valid
      obtain ⟨innerValid, restValid⟩ := List.forall_mem_append.mp tagsValid
      have sameSketch := @sketch_eq_of_alike tag ⟨otherTag, innerToo⟩ inner tagValid here below.text
        (ihInner innerValid)
      change Element.sketch ⟨otherTag, innerToo⟩ :: restToo.sketches =
        Element.sketch ⟨tag, inner⟩ :: rest.sketches
      rw [sameSketch, ihRest restValid]

end SamlGate.Canonical
