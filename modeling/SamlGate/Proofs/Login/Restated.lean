import SamlGate.Login.AuthnRequest
import SamlGate.Proofs.Canonical.Document
import SamlGate.Proofs.Canonical.Prolog
import SamlGate.Proofs.Canonical.Visible
import SamlGate.Proofs.Signature.Pipeline

/-!
Canonical octets say what the request says.

A login reads attributes of the document element and the text of its first issuer. Canonical octets are read
as a document element that says the same, however often they are canonicalized again.
-/

namespace SamlGate

open Xml Canonical Outcome Signature

/-! ### What a login reads -/

/-- Two document elements say the same to a login. -/
structure SaysSame (root other : Element) : Prop where
  attributes : ∀ name, root.tag.attribute? name = other.tag.attribute? name
  issuer : (root.childNamed? Namespaces.assertion "Issuer").map Element.text =
    (other.childNamed? Namespaces.assertion "Issuer").map Element.text

theorem SaysSame.symm {root other : Element} (same : SaysSame root other) : SaysSame other root :=
  ⟨fun name => (same.attributes name).symm, same.issuer.symm⟩

theorem SaysSame.trans {root other third : Element} (same : SaysSame root other)
    (sameToo : SaysSame other third) : SaysSame root third :=
  ⟨fun name => (same.attributes name).trans (sameToo.attributes name), same.issuer.trans sameToo.issuer⟩

/-- No part of a request is read from anything else. -/
theorem AuthnRequest.ofRoot_eq_of_saysSame {root other : Element} (same : SaysSame root other) :
    AuthnRequest.ofRoot root = AuthnRequest.ofRoot other := by
  have issuer : (root.childNamed? Namespaces.assertion "Issuer").map
        (fun issuer => Text.trim issuer.text) =
      (other.childNamed? Namespaces.assertion "Issuer").map (fun issuer => Text.trim issuer.text) := by
    simpa [Function.comp_def] using congrArg (Option.map Text.trim) same.issuer
  unfold AuthnRequest.ofRoot AuthnRequest.required AuthnRequest.flag
  simp only [same.attributes, issuer]

/-! ### The issuer -/

def isIssuer (given : (String × String) × List Char) : Bool :=
  given.1 = (Namespaces.assertion, "Issuer")

theorem isIssuer_brief (element : Element) :
    isIssuer (brief element) = element.tag.isNamed Namespaces.assertion "Issuer" := by
  unfold isIssuer brief Tag.isNamed
  simp [Bool.and_comm]

private theorem map_text_childNamed? (root : Element) :
    (root.childNamed? Namespaces.assertion "Issuer").map Element.text =
      ((briefs root.inner).find? isIssuer).map (fun given => String.ofList given.2) := by
  unfold briefs Element.childNamed?
  rw [List.find?_map, Option.map_map]
  simp only [Function.comp_def, isIssuer_brief]
  rfl

/-- A document element that is read again says the same if the first issuer is shown. -/
theorem saysSame_of_retold {document : Document} {shown : Nat → Bool} {other : Element}
    (valid : document.Valid) (retold : Retold document shown other)
    (issuer : (briefs (visible shown (document.rootPosition + 1) document.root.inner)).find? isIssuer =
      (briefs document.root.inner).find? isIssuer) :
    SaysSame other document.root := by
  refine ⟨attribute?_eq_of_alike valid.root.tag.distinct retold.tag, ?_⟩
  rw [map_text_childNamed?, map_text_childNamed?, retold.elements, issuer]

/-! ### Canonical octets -/

/-- The octets spell a document with faithful tags, whose document element says the same as this one. -/
def Restates (content : Octets) (root : Element) : Prop :=
  ∃ text last other, content = Octets.ofText text ∧ Absorbs .empty text.toList last ∧
    last.finish? = some other ∧ other.Faithful ∧ SaysSame other.root root

theorem Restates.saysSame {content : Octets} {root other : Element} (restates : Restates content root)
    (restatesToo : Restates content other) : SaysSame root other := by
  obtain ⟨text, last, whole, spelled, absorbs, finished, _, same⟩ := restates
  obtain ⟨textToo, lastToo, wholeToo, spelledToo, absorbsToo, finishedToo, _, sameToo⟩ := restatesToo
  obtain rfl := Octets.ofText_inj.mp (spelled.symm.trans spelledToo)
  obtain rfl := absorbs.deterministic absorbsToo
  rw [finished] at finishedToo
  cases finishedToo
  exact same.symm.trans sameToo

theorem restates_octets {document : Document} {set : Option NodeSet} (form : Form)
    (valid : document.Valid) (faithful : document.Faithful)
    (rootShown : shownBy set document.rootPosition = true)
    (hereditary : Hereditary (shownBy set) (document.rootPosition + 1) document.root.inner)
    (issuer :
      (briefs (visible (shownBy set) (document.rootPosition + 1) document.root.inner)).find? isIssuer =
        (briefs document.root.inner).find? isIssuer) :
    Restates (form.octets document set) document.root := by
  have retold := @retold_root form (shownBy set) document valid faithful
  refine ⟨form.text document set, _, form.retold (shownBy set) document, rfl, ?_, finish?_ofDocument _,
    retold.faithful, saysSame_of_retold valid retold issuer⟩
  rw [Form.text, String.toList_ofList]
  exact absorbs_pieces valid faithful rootShown hereditary

/-- Canonicalizing octets that restate something gives octets that restate it. -/
theorem Restates.apply_canonical {form : Form} {content : Octets} {root : Element} {result : Data}
    (restates : Restates content root)
    (applied : (Transform.canonical form).apply (.octets content) = .ok result) :
    ∃ further, result = .octets further ∧ Restates further root := by
  obtain ⟨text, last, other, spelled, absorbs, finished, faithful, same⟩ := restates
  subst spelled
  simp only [Transform.apply, Utf8.read_ofText, Form.octetsOfText] at applied
  obtain ⟨further, canonicalized, sameResult⟩ := map_eq_ok_iff.mp applied
  obtain ⟨document, isRead, sameOctets⟩ := map_eq_ok_iff.mp canonicalized
  refine ⟨further, sameResult.symm, ?_⟩
  unfold Canonical.readDocument at isRead
  split at isRead
  · rename_i found atFound
    cases isRead
    have sameRoot := root_eq_of_read? atFound absorbs finished
    have allShown : Shows (shownBy none) (fun _ => False) (document.rootPosition + 1)
        document.root.inner :=
      fun _ _ _ _ _ => rfl
    obtain ⟨hereditary, _, elements⟩ := visible_of_shows allShown (fun _ _ _ => not_false)
    have faithfulToo : document.Faithful := by
      rw [Document.Faithful, sameRoot]
      exact faithful
    obtain ⟨text, last, other, spelled, absorbs, finished, stillFaithful, sameOther⟩ :=
      restates_octets form (Document.valid_of_read? atFound) faithfulToo rfl hereditary
        (by rw [briefs_eq_of_sketches elements])
    refine ⟨text, last, other, sameOctets.symm.trans spelled, absorbs, finished, stillFaithful, ?_⟩
    rw [sameRoot] at sameOther
    exact sameOther.trans same
  · cases isRead

theorem Restates.applyAll_canonical {forms : List Form} {content : Octets} {root : Element} {result : Data}
    (restates : Restates content root)
    (applied : applyAll (forms.map .canonical) (.octets content) = .ok result) :
    Restates result.toOctets root := by
  induction forms generalizing content with
  | nil =>
      cases applied
      exact restates
  | cons form forms ih =>
      obtain ⟨passed, atFirst, afterFirst⟩ := applyAll_cons_eq_ok_iff.mp applied
      obtain ⟨further, same, restatesFurther⟩ := restates.apply_canonical atFirst
      subst same
      exact ih restatesFurther afterFirst

end SamlGate
