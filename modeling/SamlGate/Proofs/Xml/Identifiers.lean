import Mathlib.Data.List.Nodup
import SamlGate.Proofs.Xml.Sites
import SamlGate.Xml.Identifier

/-!
What an identifier means.

The identifiers of a document are the identifying values of its nodes, in document order. They are given
out only where no value occurs twice, so a reference leads to the one element that carries its value.
-/

namespace SamlGate.Xml

def Node.identifiers : Node → List String
  | .element held => held.tag.identifiers
  | _ => []

/-! ### Values that occur once -/

theorem firstRepeated?_eq_none_iff {met values : List String} :
    firstRepeated? met values = none ↔ values.Nodup ∧ ∀ value ∈ values, value ∉ met := by
  induction values generalizing met with
  | nil =>
      simp [firstRepeated?]
  | cons value rest ih =>
      unfold firstRepeated?
      by_cases before : value ∈ met
      · simp [before]
      · rw [if_neg before, ih]
        simp only [List.nodup_cons, List.mem_cons, not_or]
        constructor
        · rintro ⟨distinct, fresh⟩
          refine ⟨⟨fun again => (fresh value again).1 rfl, distinct⟩, ?_⟩
          rintro other (rfl | later)
          · exact before
          · exact (fresh other later).2
        · rintro ⟨⟨once, distinct⟩, fresh⟩
          refine ⟨distinct, fun other later => ⟨?_, fresh other (Or.inr later)⟩⟩
          rintro rfl
          exact once later

/-- The identifiers are given out exactly where no value occurs twice. -/
theorem Document.identifierMap_eq_ok_iff {document : Document} {identifiers : List Identifier} :
    document.identifierMap = .ok identifiers ↔
      identifiers = document.identifiers ∧ (document.identifiers.map Identifier.value).Nodup := by
  have distinct_iff : firstRepeated? [] (document.identifiers.map Identifier.value) = none ↔
      (document.identifiers.map Identifier.value).Nodup ∧
        ∀ value ∈ document.identifiers.map Identifier.value, value ∉ [] :=
    firstRepeated?_eq_none_iff
  unfold Document.identifierMap
  cases repeated : firstRepeated? [] (document.identifiers.map Identifier.value) with
  | none =>
      have distinct := (distinct_iff.mp repeated).1
      simp [distinct, eq_comm]
  | some value =>
      have notDistinct : ¬ (document.identifiers.map Identifier.value).Nodup := by
        intro distinct
        rw [distinct_iff.mpr ⟨distinct, by simp⟩] at repeated
        cases repeated
      simp [notDistinct]

/-! ### Identifiers and nodes -/

theorem Content.map_value_identifiers (start : Nat) (content : Content) :
    (content.identifiers start).map Identifier.value = content.nodes.flatMap Node.identifiers := by
  induction content generalizing start with
  | done =>
      rfl
  | leaf first rest ih =>
      simpa [Content.identifiers, Content.nodes, Node.identifiers] using ih (start + 1)
  | element tag inner rest ihInner ihRest =>
      simp [Content.identifiers, Content.nodes, Node.identifiers, ihInner, ihRest, Function.comp_def]

theorem Content.mem_identifiers_iff {start : Nat} {content : Content} {known : Identifier} :
    known ∈ content.identifiers start ↔
      start ≤ known.position ∧ ∃ node, content.nodes[known.position - start]? = some node ∧
        known.value ∈ node.identifiers := by
  induction content generalizing start with
  | done =>
      simp [Content.identifiers, Content.nodes]
  | leaf first rest ih =>
      rw [Content.identifiers, ih, Content.nodes]
      constructor
      · rintro ⟨after, node, atPosition, carries⟩
        refine ⟨by omega, node, ?_, carries⟩
        rwa [show known.position - start = known.position - (start + 1) + 1 by omega,
          List.getElem?_cons_succ]
      · rintro ⟨after, node, atPosition, carries⟩
        by_cases here : known.position = start
        · rw [here, Nat.sub_self, List.getElem?_cons_zero] at atPosition
          cases atPosition
          cases carries
        · refine ⟨by omega, node, ?_, carries⟩
          rwa [show known.position - start = known.position - (start + 1) + 1 by omega,
            List.getElem?_cons_succ] at atPosition
  | element tag inner rest ihInner ihRest =>
      rw [Content.identifiers, List.mem_append, List.mem_append, ihInner, ihRest, Content.nodes]
      constructor
      · rintro (here | ⟨after, node, atPosition, carries⟩ | ⟨after, node, atPosition, carries⟩)
        · obtain ⟨value, carries, same⟩ := List.mem_map.mp here
          subst same
          exact ⟨Nat.le_refl _, .element ⟨tag, inner⟩, by simp, carries⟩
        · refine ⟨by omega, node, ?_, carries⟩
          rw [show known.position - start = known.position - (start + 1) + 1 by omega,
            List.getElem?_cons_succ, List.getElem?_append_left]
          · exact atPosition
          · exact (List.getElem?_eq_some_iff.mp atPosition).1
        · refine ⟨by omega, node, ?_, carries⟩
          rw [show known.position - start =
              inner.nodes.length + (known.position - (start + 1 + inner.size)) + 1 by
                rw [Content.length_nodes]; omega,
            List.getElem?_cons_succ, List.getElem?_append_right (by omega), Nat.add_sub_cancel_left]
          exact atPosition
      · rintro ⟨after, node, atPosition, carries⟩
        by_cases here : known.position = start
        · rw [here, Nat.sub_self, List.getElem?_cons_zero] at atPosition
          cases atPosition
          exact Or.inl (List.mem_map.mpr ⟨known.value, carries, by rw [← here]⟩)
        · rw [show known.position - start = known.position - (start + 1) + 1 by omega,
            List.getElem?_cons_succ] at atPosition
          by_cases inside : known.position - (start + 1) < inner.nodes.length
          · rw [List.getElem?_append_left inside] at atPosition
            exact Or.inr (Or.inl ⟨by omega, node, atPosition, carries⟩)
          · rw [List.getElem?_append_right (by omega), Content.length_nodes] at atPosition
            rw [Content.length_nodes] at inside
            refine Or.inr (Or.inr ⟨by omega, node, ?_, carries⟩)
            rwa [show known.position - (start + 1 + inner.size) =
              known.position - (start + 1) - inner.size by omega]

theorem Document.map_value_identifiers (document : Document) :
    document.identifiers.map Identifier.value = document.nodes.flatMap Node.identifiers := by
  rw [Document.identifiers, Content.map_value_identifiers, Document.nodes]
  rfl

theorem Document.mem_identifiers_iff {document : Document} {known : Identifier} :
    known ∈ document.identifiers ↔
      ∃ node, document.nodes[known.position]? = some node ∧ known.value ∈ node.identifiers := by
  rw [Document.identifiers, Content.mem_identifiers_iff, Document.nodes]
  constructor
  · rintro ⟨after, node, atPosition, carries⟩
    refine ⟨node, ?_, carries⟩
    rwa [show known.position = known.position - 1 + 1 by omega, List.getElem?_cons_succ]
  · rintro ⟨node, atPosition, carries⟩
    cases position : known.position with
    | zero =>
        rw [position, List.getElem?_cons_zero] at atPosition
        cases atPosition
        cases carries
    | succ before =>
        rw [position, List.getElem?_cons_succ] at atPosition
        exact ⟨by omega, node, atPosition, carries⟩

/-! ### References -/

theorem fragment?_eq_some_iff {uri value : String} : fragment? uri = some value ↔ uri = "#" ++ value := by
  rw [← String.toList_inj, String.toList_append]
  unfold fragment?
  cases spelled : uri.toList with
  | nil =>
      simp
  | cons first rest =>
      by_cases mark : first = '#'
      · subst mark
        simp [String.ext_iff, eq_comm]
      · simp [mark]

private theorem find?_value_eq_some_iff {identifiers : List Identifier} {value : String}
    {known : Identifier} (distinct : (identifiers.map Identifier.value).Nodup) :
    identifiers.find? (fun candidate => candidate.value = value) = some known ↔
      known ∈ identifiers ∧ known.value = value := by
  constructor
  · intro found
    exact ⟨List.mem_of_find?_eq_some found, by simpa using List.find?_some found⟩
  · rintro ⟨member, same⟩
    cases found : identifiers.find? (fun candidate => candidate.value = value) with
    | none =>
        exact absurd same (by simpa using List.find?_eq_none.mp found known member)
    | some other =>
        have otherSame : other.value = value := by
          simpa using List.find?_some found
        rw [List.inj_on_of_nodup_map distinct (List.mem_of_find?_eq_some found) member
          (otherSame.trans same.symm)]

/-- Where no value occurs twice, a value is resolved to the one node that carries it. -/
theorem Document.resolve_eq_ok_iff {document : Document} {value : String} {site : Site}
    (distinct : (document.identifiers.map Identifier.value).Nodup) :
    document.resolve document.identifiers value = .ok site ↔
      document.nodes[site.position]? = some site.node ∧ value ∈ site.node.identifiers := by
  have resolved_iff : document.resolve document.identifiers value = .ok site ↔
      ∃ known, (known ∈ document.identifiers ∧ known.value = value) ∧
        document.site? known.position = some site := by
    simp only [← find?_value_eq_some_iff distinct, ← Option.bind_eq_some_iff]
    unfold Document.resolve
    split
    · rename_i other found
      rw [found]
      simp
    · rename_i missing
      rw [missing]
      simp
  rw [resolved_iff]
  constructor
  · rintro ⟨known, ⟨member, same⟩, atSite⟩
    obtain ⟨node, atPosition, carries⟩ := Document.mem_identifiers_iff.mp member
    rw [Document.site?, atPosition] at atSite
    cases atSite
    exact ⟨atPosition, same ▸ carries⟩
  · rintro ⟨atPosition, carries⟩
    refine ⟨⟨value, site.position⟩, ⟨?_, rfl⟩, ?_⟩
    · exact Document.mem_identifiers_iff.mpr ⟨site.node, atPosition, carries⟩
    · rw [Document.site?, atPosition]
      rfl

end SamlGate.Xml
