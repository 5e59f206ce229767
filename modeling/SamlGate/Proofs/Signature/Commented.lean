import SamlGate.Proofs.Canonical.Comments
import SamlGate.Proofs.Signature.SignedInfo

/-!
Comments in what a signature's value covers.

A signature's value covers the canonical octets of its statement, less all comments. So a method with comments
comes to the one without, and the octets are those of the stated method exactly where that method writes no
comments or the statement has none.
-/

namespace SamlGate.Signature

open Xml Canonical Outcome

/-- The verification of a signature at a site comes to the value of the signature, over these octets. -/
structure Embedded.Reaches (signature : Embedded) (document : Document) (site : Site) (octets : Octets) :
    Prop where
  stands : document.site? site.position = some site
  isRead : Embedded.read site.node = .ok signature
  digested : ∃ covered, coverage document site signature.signedInfo = .ok covered ∧
    covered.check document site = .ok ()
  covers : signedInfoOctets document site signature.signedInfo = .ok octets

private theorem Embedded.Reaches.verify_eq {signature : Embedded} {document : Document} {site : Site}
    {octets : Octets} (reaches : signature.Reaches document site octets) (key : VerificationKey) :
    signature.verify key document site = signature.checkValue key octets := by
  rcases reaches.digested with ⟨covered, follows, passes⟩
  unfold verify
  rw [follows]
  change (covered.check document site >>= fun _ => _) = _
  rw [passes]
  change (signedInfoOctets document site signature.signedInfo >>= fun _ => _) = _
  rw [reaches.covers]
  rfl

/-- The octets that a value is verified over are those of the statement by the stated method, less its
comments. -/
theorem Embedded.Reaches.octets_eq {signature : Embedded} {document : Document} {site : Site}
    {octets : Octets} (reaches : signature.Reaches document site octets) :
    ∃ part method, site.childNamed? Namespaces.signature "SignedInfo" = some part ∧
      Method.ofUri? signature.signedInfo.canonicalization.algorithm = some method ∧
      octets = (Form.withoutComments ⟨method, signature.signedInfo.canonicalization.listed⟩).octets document
        (some (NodeSet.tree document part)) := by
  rcases signedInfoOctets_eq_ok_iff.mp reaches.covers with ⟨part, method, isPart, known, same⟩
  rw [octets_treeWithoutComments] at same
  exact ⟨part, method, isPart, known, same.symm⟩

def Uncommented (document : Document) (site : Site) : Prop :=
  ∀ position node, document.nodes[position]? = some node → site.position ≤ position → position < site.stop →
    node.isComment = false

theorem octets_tree_withoutComments_eq_iff {form : Form} {document : Document} {site : Site} :
    form.withoutComments.octets document (some (NodeSet.tree document site)) =
        form.octets document (some (NodeSet.tree document site)) ↔
      form.method.comments = false ∨ Uncommented document site := by
  have isShown {position : Nat} {node : Node} (atPosition : document.nodes[position]? = some node) :
      shownBy (some (NodeSet.tree document site)) position = true ↔
        site.position ≤ position ∧ position < site.stop := by
    change (NodeSet.tree document site).has position = true ↔ _
    rw [NodeSet.tree, NodeSet.has_select, atPosition]
    simp
  rw [octets_withoutComments_eq_iff]
  refine or_congr Iff.rfl ?_
  constructor
  · intro none position node atPosition after before
    exact none position node atPosition ((isShown atPosition).mpr ⟨after, before⟩)
  · intro none position node atPosition here
    rcases (isShown atPosition).mp here with ⟨after, before⟩
    exact none position node atPosition after before

/-- The octets that a value is verified over are those of the stated method without comments. They are those
of the stated method itself exactly where it writes no comments or the statement has none. -/
theorem Embedded.verify_covers_withoutComments {signature : Embedded} {document : Document} {site : Site}
    {octets : Octets} (reaches : signature.Reaches document site octets) :
    (∀ key, signature.verify key document site = signature.checkValue key octets) ∧
      ∃ part method, site.childNamed? Namespaces.signature "SignedInfo" = some part ∧
        Method.ofUri? signature.signedInfo.canonicalization.algorithm = some method ∧
        octets = Form.octets ⟨{ method with comments := false }, signature.signedInfo.canonicalization.listed⟩
          document (some (NodeSet.tree document part)) ∧
        (octets = Form.octets ⟨method, signature.signedInfo.canonicalization.listed⟩ document
            (some (NodeSet.tree document part)) ↔
          method.comments = false ∨ Uncommented document part) := by
  rcases reaches.octets_eq with ⟨part, method, isPart, known, same⟩
  refine ⟨reaches.verify_eq, part, method, isPart, known, same, ?_⟩
  rw [same]
  exact octets_tree_withoutComments_eq_iff

/-! ### A comment in a statement -/

/-- An element with a signature over it, whose method has comments, and with this in front of the method. -/
def enclosing (inFront : String) : List Char :=
  ["<r><Signature xmlns=\"http://www.w3.org/2000/09/xmldsig#\">",
    "<SignedInfo>", inFront,
    "<CanonicalizationMethod Algorithm=",
    "\"http://www.w3.org/2001/10/xml-exc-c14n#WithComments\"/>",
    "<SignatureMethod Algorithm=",
    "\"http://www.w3.org/2000/09/xmldsig#rsa-sha1\"/>",
    "<Reference URI=\"\">",
    "<Transforms><Transform Algorithm=",
    "\"http://www.w3.org/2000/09/xmldsig#enveloped-signature\"/>",
    "</Transforms>",
    "<DigestMethod Algorithm=",
    "\"http://www.w3.org/2000/09/xmldsig#sha1\"/>",
    "<DigestValue>41oyxJq93YOPfMwMV8u/BYe3fPU=</DigestValue>",
    "</Reference>",
    "</SignedInfo>",
    "<SignatureValue>AAAA</SignatureValue>",
    "</Signature></r>"].flatMap String.toList

/-- The signature at a position whose value is reached, its statement, and the characters of what the value is
verified over. -/
def reached? (document : Document) (position : Nat) : Option (Site × Embedded × Site × List Char) := do
  let site ← document.site? position
  let signature ← (Embedded.read site.node).toOption
  let covered ← (coverage document site signature.signedInfo).toOption
  let _ ← (covered.check document site).toOption
  let part ← site.childNamed? Namespaces.signature "SignedInfo"
  let method ← Method.ofUri? signature.signedInfo.canonicalization.algorithm
  let form : Form := ⟨method, signature.signedInfo.canonicalization.listed⟩
  let shown := shownBy (some (NodeSet.treeWithoutComments document part))
  pure (site, signature, part, (form.pieces true shown document).flatMap Piece.spelling)

private theorem reaches_of_reached? {document : Document} {position : Nat} {site part : Site}
    {signature : Embedded}
    {characters : List Char} (found : reached? document position = some (site, signature, part, characters)) :
    signature.Reaches document site (Octets.ofText (String.ofList characters)) ∧
      site.childNamed? Namespaces.signature "SignedInfo" = some part := by
  rcases Option.bind_eq_some_iff.mp found with ⟨_, stands, found⟩
  rcases Option.bind_eq_some_iff.mp found with ⟨_, isRead, found⟩
  rcases Option.bind_eq_some_iff.mp found with ⟨covered, follows, found⟩
  rcases Option.bind_eq_some_iff.mp found with ⟨_, digested, found⟩
  rcases Option.bind_eq_some_iff.mp found with ⟨_, isPart, found⟩
  rcases Option.bind_eq_some_iff.mp found with ⟨method, known, same⟩
  cases same
  have standsToo : document.site? site.position = some site := by
    rcases Option.map_eq_some_iff.mp stands with ⟨_, _, rfl⟩
    exact stands
  exact ⟨⟨standsToo, toOption_eq_some_iff.mp isRead,
    ⟨covered, toOption_eq_some_iff.mp follows, toOption_eq_some_iff.mp digested⟩,
    signedInfoOctets_eq_ok_iff.mpr ⟨_, _, isPart, known, rfl⟩⟩, isPart⟩

private theorem exists_reached_enclosing :
    ∃ (document other : Document) (site siteToo part : Site) (signature signatureToo : Embedded)
      (octets : Octets),
      Document.read? 40 (String.ofList (enclosing "<!--c-->")) = some document ∧
        Document.read? 40 (String.ofList (enclosing "")) = some other ∧
        signature.Reaches document site octets ∧ signatureToo.Reaches other siteToo octets ∧
        site.childNamed? Namespaces.signature "SignedInfo" = some part ∧
        signature.signedInfo.canonicalization = ⟨Method.uri ⟨true, true⟩, []⟩ ∧
        ¬ Uncommented document part := by
  have checked : (Document.read? 40 (String.ofList (enclosing "<!--c-->"))).any (fun document =>
      (Document.read? 40 (String.ofList (enclosing ""))).any (fun other =>
        (reached? document 2).any (fun found =>
          (reached? other 2).any (fun foundToo =>
            found.2.1.signedInfo.canonicalization = ⟨Method.uri ⟨true, true⟩, []⟩ ∧
              found.2.2.2 = foundToo.2.2.2 ∧ found.2.2.1.position ≤ 4 ∧ 4 < found.2.2.1.stop ∧
              document.nodes[4]? = some (.leaf (.misc (.comment "c"))))))) = true := by
    simp only [Document.read?, String.toList_ofList]
    decide +kernel
  rcases (Option.any_eq_true _ _).mp checked with ⟨document, isRead, checked⟩
  rcases (Option.any_eq_true _ _).mp checked with ⟨other, isReadToo, checked⟩
  rcases (Option.any_eq_true _ _).mp checked with ⟨⟨site, signature, part, characters⟩, found, checked⟩
  rcases (Option.any_eq_true _ _).mp checked with
    ⟨⟨siteToo, signatureToo, partToo, charactersToo⟩, foundToo, checked⟩
  rcases of_decide_eq_true checked with ⟨stated, same, after, before, isComment⟩
  dsimp only at same
  subst same
  rcases reaches_of_reached? found with ⟨reaches, isPart⟩
  have commented : ¬ Uncommented document part := by
    intro none
    cases none 4 _ isComment after before
  exact ⟨document, other, site, siteToo, part, signature, signatureToo, _, isRead, isReadToo, reaches,
    (reaches_of_reached? foundToo).1, isPart, stated, commented⟩

/-- A comment in the statement, under a method with comments, is not covered. -/
theorem Embedded.verify_covers_withoutComments_enclosing :
    ∃ (document : Document) (site part : Site) (signature : Embedded) (octets : Octets),
      Document.read? 40 (String.ofList (enclosing "<!--c-->")) = some document ∧
        signature.Reaches document site octets ∧
        (∀ key, signature.verify key document site = signature.checkValue key octets) ∧
        site.childNamed? Namespaces.signature "SignedInfo" = some part ∧
        signature.signedInfo.canonicalization = ⟨Method.uri ⟨true, true⟩, []⟩ ∧
        octets = Form.octets ⟨⟨true, false⟩, []⟩ document (some (NodeSet.tree document part)) := by
  rcases exists_reached_enclosing with
    ⟨document, _, site, _, _, signature, _, octets, isRead, _, reaches, _, _, stated, _⟩
  rcases verify_covers_withoutComments reaches with ⟨verifies, part, method, isPart, known, same, _⟩
  rw [stated] at known same
  rw [Method.ofUri?_uri] at known
  cases known
  exact ⟨document, site, part, signature, octets, isRead, reaches, verifies, isPart, stated, same⟩

/-- Under a method with comments, a value is verified over octets that are not those of the whole statement,
and over the same ones when the comment is taken out. -/
theorem not_covers_comment_enclosing :
    ∃ (document other : Document) (site siteToo part : Site) (signature signatureToo : Embedded)
      (octets : Octets),
      Document.read? 40 (String.ofList (enclosing "<!--c-->")) = some document ∧
        Document.read? 40 (String.ofList (enclosing "")) = some other ∧
        signature.Reaches document site octets ∧ signatureToo.Reaches other siteToo octets ∧
        site.childNamed? Namespaces.signature "SignedInfo" = some part ∧
        Method.ofUri? signature.signedInfo.canonicalization.algorithm = some ⟨true, true⟩ ∧
        octets ≠ Form.octets ⟨⟨true, true⟩, signature.signedInfo.canonicalization.listed⟩ document
          (some (NodeSet.tree document part)) := by
  obtain ⟨document, other, site, siteToo, part, signature, signatureToo, octets, isRead, isReadToo, reaches,
    reachesToo, isPart, stated, commented⟩ := exists_reached_enclosing
  rcases reaches.octets_eq with ⟨partToo, method, isPartToo, known, same⟩
  rw [isPart] at isPartToo
  cases isPartToo
  rw [stated, Method.ofUri?_uri] at known
  cases known
  refine ⟨document, other, site, siteToo, part, signature, signatureToo, octets, isRead, isReadToo, reaches,
    reachesToo, isPart, by rw [stated, Method.ofUri?_uri], ?_⟩
  intro whole
  rw [same] at whole
  rcases octets_tree_withoutComments_eq_iff.mp whole with plain | none
  · cases plain
  · exact commented none

end SamlGate.Signature
