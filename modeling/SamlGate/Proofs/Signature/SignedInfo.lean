import SamlGate.Proofs.Canonical.Subtree
import SamlGate.Proofs.Outcome
import SamlGate.Signature.Verification

/-!
What is read of a signature's statement is what its value covers.

The statement is read from the tree, and the value covers its canonical octets. Whatever the reader looks at
is part of the sketch of the element, and the octets are read as an element with that sketch. So octets of two
statements are the same only if the statements are.
-/

namespace SamlGate.Signature

open Xml Canonical Outcome

/-! ### Readers see a sketch -/

section Readers

variable {element other : Element}

private theorem map_childNamed?_congr (same : element.sketch = other.sketch)
    (namespaceUri localName : String) :
    (element.childNamed? namespaceUri localName).map Element.sketch =
      (other.childNamed? namespaceUri localName).map Element.sketch := by
  rw [map_sketch_childNamed?, map_sketch_childNamed?, same]

private theorem map_childrenNamed_congr (same : element.sketch = other.sketch)
    (namespaceUri localName : String) :
    (element.childrenNamed namespaceUri localName).map Element.sketch =
      (other.childrenNamed namespaceUri localName).map Element.sketch := by
  rw [map_sketch_childrenNamed, map_sketch_childrenNamed, same]

private theorem attribute?_congr (same : element.sketch = other.sketch) (name : String) :
    element.tag.attribute? name = other.tag.attribute? name :=
  congrFun (congrArg Sketch.attribute? same) name

private theorem text_congr (same : element.sketch = other.sketch) : element.text = other.text :=
  congrArg String.ofList (congrArg Sketch.text same)

private theorem map_requiredPart_congr (same : element.sketch = other.sketch) (name : String) :
    (requiredPart element name).map Element.sketch = (requiredPart other name).map Element.sketch := by
  have parts := map_childNamed?_congr same Namespaces.signature name
  unfold requiredPart
  cases found : element.childNamed? Namespaces.signature name with
  | none =>
      rw [found] at parts
      rw [Option.map_eq_none_iff.mp parts.symm]
  | some part =>
      rw [found] at parts
      obtain ⟨partToo, foundToo, samePart⟩ := Option.map_eq_some_iff.mp parts.symm
      rw [foundToo]
      exact congrArg Except.ok samePart.symm

private theorem requiredAlgorithm_congr (same : element.sketch = other.sketch) :
    requiredAlgorithm element = requiredAlgorithm other := by
  have name : element.tag.name.localName = other.tag.name.localName := congrArg Sketch.localName same
  unfold requiredAlgorithm
  rw [attribute?_congr same, name]

private theorem listedPrefixes_congr (same : element.sketch = other.sketch) :
    listedPrefixes element = listedPrefixes other := by
  have bySketch (method : Element) :
      (method.childNamed? Namespaces.exclusive "InclusiveNamespaces").bind
          (fun list => list.tag.attribute? "PrefixList") =
        ((method.childNamed? Namespaces.exclusive "InclusiveNamespaces").map Element.sketch).bind
          (fun list => list.attribute? "PrefixList") := by
    rw [Option.bind_map]
    rfl
  unfold listedPrefixes
  rw [bySketch, bySketch, map_childNamed?_congr same]

theorem StatedMethod.read_congr (same : element.sketch = other.sketch) :
    StatedMethod.read element = StatedMethod.read other := by
  unfold StatedMethod.read
  rw [requiredAlgorithm_congr same, listedPrefixes_congr same]

private theorem readTransforms_congr (same : element.sketch = other.sketch) :
    readTransforms element = readTransforms other := by
  have lists := map_childNamed?_congr same Namespaces.signature "Transforms"
  unfold readTransforms
  cases found : element.childNamed? Namespaces.signature "Transforms" with
  | none =>
      rw [found] at lists
      rw [Option.map_eq_none_iff.mp lists.symm]
  | some list =>
      rw [found] at lists
      obtain ⟨listToo, foundToo, sameList⟩ := Option.map_eq_some_iff.mp lists.symm
      rw [foundToo]
      exact mapM_congr_of_view (map_childrenNamed_congr sameList.symm _ _) fun _ _ => StatedMethod.read_congr

theorem Reference.read_congr (same : element.sketch = other.sketch) :
    Reference.read element = Reference.read other := by
  unfold Reference.read
  rw [readTransforms_congr same, attribute?_congr same]
  congr 1
  funext transforms
  apply bind_congr_of_view (map_requiredPart_congr same "DigestMethod")
  intro digestMethod digestMethodToo sameMethod
  apply bind_congr_of_view (map_requiredPart_congr same "DigestValue")
  intro digestValue digestValueToo sameValue
  rw [requiredAlgorithm_congr sameMethod, text_congr sameValue]

/-- A statement is read as its sketch says. -/
theorem SignedInfo.read_congr (same : element.sketch = other.sketch) :
    SignedInfo.read element = SignedInfo.read other := by
  unfold SignedInfo.read
  apply bind_congr_of_view (map_requiredPart_congr same "CanonicalizationMethod")
  intro canonicalization canonicalizationToo sameCanonicalization
  apply bind_congr_of_view (map_requiredPart_congr same "SignatureMethod")
  intro signatureMethod signatureMethodToo sameMethod
  have references := mapM_congr_of_view
    (map_childrenNamed_congr same Namespaces.signature "Reference") fun _ _ => Reference.read_congr
  rw [references, StatedMethod.read_congr sameCanonicalization, requiredAlgorithm_congr sameMethod]

end Readers

/-! ### The covered statement -/

private theorem Embedded.read_eq_ok {node : Node} {signature : Embedded}
    (isRead : Embedded.read node = .ok signature) :
    ∃ element part, node = .element element ∧
      element.childNamed? Namespaces.signature "SignedInfo" = some part ∧
      SignedInfo.read part = .ok signature.signedInfo := by
  unfold Embedded.read at isRead
  cases node with
  | element element =>
      dsimp only at isRead
      split at isRead
      · obtain ⟨part, atPart, afterPart⟩ := bind_eq_ok_iff.mp isRead
        obtain ⟨value, _, afterValue⟩ := bind_eq_ok_iff.mp afterPart
        obtain ⟨stated, isStated, same⟩ := bind_eq_ok_iff.mp afterValue
        refine ⟨element, part, rfl, ?_, ?_⟩
        · unfold requiredPart at atPart
          split at atPart
          · cases atPart
            assumption
          · cases atPart
        · rw [isStated, ← Except.ok.inj same]
      · cases isRead
  | document _ | leaf _ =>
      cases isRead

theorem signedInfoOctets_eq_ok_iff {document : Document} {site : Site} {signedInfo : SignedInfo}
    {octets : Octets} :
    signedInfoOctets document site signedInfo = .ok octets ↔
      ∃ part method, site.childNamed? Namespaces.signature "SignedInfo" = some part ∧
        Method.ofUri? signedInfo.canonicalization.algorithm = some method ∧
        Form.octets ⟨method, signedInfo.canonicalization.listed⟩ document
          (some (NodeSet.treeWithoutComments document part)) = octets := by
  constructor
  · intro covers
    unfold signedInfoOctets at covers
    split at covers
    · cases covers
    · split at covers
      · cases covers
      · exact ⟨_, _, ‹_›, ‹_›, Except.ok.inj covers⟩
  · rintro ⟨part, method, isPart, known, same⟩
    unfold signedInfoOctets
    rw [isPart]
    dsimp only
    rw [known]
    exact congrArg Except.ok same

/-- The statement of a signature is read from the element whose octets its value covers. -/
theorem exists_statement {document : Document} {site : Site} {signature : Embedded} {octets : Octets}
    (stands : document.site? site.position = some site) (isRead : Embedded.read site.node = .ok signature)
    (covers : signedInfoOctets document site signature.signedInfo = .ok octets) :
    ∃ position element form, document.rootContent.Has position document.rootPosition element ∧
      SignedInfo.read element = .ok signature.signedInfo ∧
      Form.octets form document
        (some (NodeSet.treeWithoutComments document ⟨position, .element element⟩)) = octets := by
  obtain ⟨position, node⟩ := site
  obtain ⟨whole, part, same, isPart, isStated⟩ := Embedded.read_eq_ok isRead
  cases same
  obtain ⟨covered, method, isCovered, _, spelled⟩ := signedInfoOctets_eq_ok_iff.mp covers
  rcases Site.childNamed?_cases position whole Namespaces.signature "SignedInfo" with
    ⟨_, missing⟩ | ⟨below, child, atSite, atElement⟩
  · rw [missing] at isPart
    cases isPart
  · rw [atElement] at isPart
    rw [atSite] at isCovered
    cases isPart
    cases isCovered
    have has := Document.has_of_site? stands
    have child := Content.has_of_mem_sites (Site.mem_children_of_childNamed? atSite)
    exact ⟨below, part, _, has.below child, isStated, spelled⟩

/-- Two signatures, in whatever documents that conform to the rules of namespaces, have the same statement if
the octets that their values cover are the same. -/
theorem signedInfo_eq_of_octets_eq {limit limitToo : Nat} {text textToo : String} {document other : Document}
    {site siteToo : Site} {signature signatureToo : Embedded} {octets : Octets}
    (isRead : Document.read? limit text = some document)
    (isReadToo : Document.read? limitToo textToo = some other)
    (conforms : ∀ tag ∈ document.root.tags, tag.scope.Conforms)
    (conformsToo : ∀ tag ∈ other.root.tags, tag.scope.Conforms)
    (stands : document.site? site.position = some site)
    (standsToo : other.site? siteToo.position = some siteToo)
    (states : Embedded.read site.node = .ok signature)
    (statesToo : Embedded.read siteToo.node = .ok signatureToo)
    (covers : signedInfoOctets document site signature.signedInfo = .ok octets)
    (coversToo : signedInfoOctets other siteToo signatureToo.signedInfo = .ok octets) :
    signature.signedInfo = signatureToo.signedInfo := by
  obtain ⟨position, element, form, has, isStated, same⟩ := exists_statement stands states covers
  obtain ⟨positionToo, elementToo, formToo, hasToo, isStatedToo, sameToo⟩ :=
    exists_statement standsToo statesToo coversToo
  have oneText := Octets.ofText_inj.mp (same.trans sameToo.symm)
  have spells := spellsSketch_text form (Document.valid_of_read? isRead) conforms has
  have spellsToo := spellsSketch_text formToo (Document.valid_of_read? isReadToo) conformsToo hasToo
  rw [← oneText] at spellsToo
  have oneSketch := spells.unique spellsToo
  rw [SignedInfo.read_congr oneSketch, isStatedToo] at isStated
  exact (Except.ok.inj isStated).symm

def signing (digestValue : String) : List Char :=
  ["<Signature xmlns=\"http://www.w3.org/2000/09/xmldsig#\">",
    "<SignedInfo>",
    "<CanonicalizationMethod Algorithm=",
    "\"http://www.w3.org/TR/2001/REC-xml-c14n-20010315\"/>",
    "<SignatureMethod Algorithm=\"s\"/>",
    "<Reference URI=\"#_1\">",
    "<DigestMethod Algorithm=\"d\"/>",
    "<DigestValue>", digestValue, "</DigestValue>",
    "</Reference>",
    "</SignedInfo>",
    "<SignatureValue>AAAA</SignatureValue>",
    "</Signature>"].flatMap String.toList

def wholeSignature? (document : Document) : Option (Embedded × List Char) :=
  match Embedded.read document.rootSite.node,
      document.rootSite.childNamed? Namespaces.signature "SignedInfo" with
  | .ok signature, some part =>
    match Method.ofUri? signature.signedInfo.canonicalization.algorithm with
    | none => none
    | some method =>
      let shown := shownBy (some (NodeSet.treeWithoutComments document part))
      let form : Form := ⟨method, signature.signedInfo.canonicalization.listed⟩
      some (signature, (form.pieces true shown document).flatMap Piece.spelling)
  | _, _ => none

private theorem wholeSignature?_eq_some {document : Document} {signature : Embedded}
    {characters : List Char}
    (found : wholeSignature? document = some (signature, characters)) :
    Embedded.read document.rootSite.node = .ok signature ∧
      signedInfoOctets document document.rootSite signature.signedInfo =
        .ok (Octets.ofText (String.ofList characters)) := by
  unfold wholeSignature? at found
  split at found
  · rename_i isRead isPart
    split at found
    · cases found
    · rename_i known
      cases found
      exact ⟨isRead, signedInfoOctets_eq_ok_iff.mpr ⟨_, _, isPart, known, rfl⟩⟩
  · cases found

/-- A comment in the digest value changes neither the octets nor what is read. -/
theorem signedInfo_eq_of_octets_eq_commented :
    ∃ document other signature signatureToo characters,
      Document.read? 20 (String.ofList (signing "AAAA")) = some document ∧
        Document.read? 20 (String.ofList (signing "AA<!-- -->AA")) = some other ∧
        document.root ≠ other.root ∧
        wholeSignature? document = some (signature, characters) ∧
        wholeSignature? other = some (signatureToo, characters) ∧
        signature.signedInfo = signatureToo.signedInfo := by
  have checked : (Document.read? 20 (String.ofList (signing "AAAA"))).any (fun document =>
      (Document.read? 20 (String.ofList (signing "AA<!-- -->AA"))).any (fun other =>
        (∀ tag ∈ document.root.tags, tag.scope.Conforms) ∧
          (∀ tag ∈ other.root.tags, tag.scope.Conforms) ∧ document.root ≠ other.root ∧
          (wholeSignature? document).isSome ∧
          (wholeSignature? other).map Prod.snd = (wholeSignature? document).map Prod.snd)) = true := by
    simp only [Document.read?, String.toList_ofList]
    decide +kernel
  obtain ⟨document, isRead, checkedToo⟩ := (Option.any_eq_true _ _).mp checked
  obtain ⟨other, isReadToo, passes⟩ := (Option.any_eq_true _ _).mp checkedToo
  obtain ⟨conforms, conformsToo, different, found, same⟩ := of_decide_eq_true passes
  obtain ⟨⟨signature, characters⟩, whole⟩ := Option.isSome_iff_exists.mp found
  rw [whole] at same
  obtain ⟨⟨signatureToo, charactersToo⟩, wholeToo, sameCharacters⟩ := Option.map_eq_some_iff.mp same
  cases sameCharacters
  obtain ⟨states, covers⟩ := wholeSignature?_eq_some whole
  obtain ⟨statesToo, coversToo⟩ := wholeSignature?_eq_some wholeToo
  have stands (document : Document) :
      document.site? document.rootSite.position = some document.rootSite :=
    congrArg (Option.map _) document.getElem?_nodes_rootPosition
  exact ⟨document, other, signature, signatureToo, characters, isRead, isReadToo, different, whole, wholeToo,
    signedInfo_eq_of_octets_eq isRead isReadToo conforms conformsToo (stands _) (stands _) states statesToo
      covers coversToo⟩

end SamlGate.Signature
