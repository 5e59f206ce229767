import SamlGate.Proofs.Login.PostedSignature
import SamlGate.Proofs.Login.Restated
import SamlGate.Proofs.Signature.Coverage

/-!
What is digested is what is used.

The octets that the signature of a request digests restate the request: two documents with the same digested
octets are read as the same request. This needs documents whose names canonical text shows faithfully. Where
a tag declares the default namespace twice, reading takes the first and canonical text shows the last; where
a prefix is bound to the empty namespace, canonical text shows nothing.
-/

namespace SamlGate

open Xml Canonical Outcome Signature

/-- What the signature of a document digests. The signature is the one directly below the document element,
its only reference leads to the document element, and every transform of the reference succeeds. -/
def Digests (document : Document) (octets : Octets) : Prop :=
  ∃ posted covered, postedSignature? document = .ok (some posted) ∧
    coverage document posted.site posted.signature.signedInfo = .ok covered ∧
    covered.octets document posted.site = .ok octets

/-! ### What is left of the selected nodes -/

/-- Which of the selected nodes are left when the signature has been taken out some number of times. -/
def isLeft (document : Document) (uri : String) (signature : Site) (removals position : Nat) : Bool :=
  (removed signature (selected document uri) removals).has position

section Left

variable {document : Document} {uri : String} {position : Nat} {element : Element} {removals : Nat}

private theorem isLeft_rootPosition (child : ⟨position, .element element⟩ ∈ document.rootSite.children) :
    isLeft document uri ⟨position, .element element⟩ removals document.rootPosition = true := by
  have above := (Content.getElem?_nodes_of_mem_sites child).1
  refine (has_removed _ _ _ _).mpr ⟨?_, fun _ covered => ?_⟩
  · rw [has_selected document.getElem?_nodes_rootPosition (Nat.le_refl _) document.rootSite.lt_stop]
    rfl
  · have below := covered.1
    simp only [Document.rootSite] at above below
    omega

private theorem shows_isLeft :
    Shows (isLeft document uri ⟨position, .element element⟩ removals)
      (fun below => 0 < removals ∧ Covers ⟨position, .element element⟩ below)
      (document.rootPosition + 1) document.root.inner := by
  intro index node atIndex notComment notExcepted
  have within : index < document.root.inner.size := by
    rw [← Content.length_nodes]
    exact (List.getElem?_eq_some_iff.mp atIndex).1
  have inDocument : document.nodes[document.rootPosition + 1 + index]? = some node := by
    rw [document.getElem?_nodes_below within]
    exact atIndex
  refine (has_removed _ _ _ _).mpr ⟨?_, fun taken covered => notExcepted ⟨taken, covered⟩⟩
  have afterStart : document.rootSite.position ≤ document.rootPosition + 1 + index := by
    simp only [Document.rootSite]
    omega
  have beforeStop : document.rootPosition + 1 + index < document.rootSite.stop := by
    simp only [Document.rootSite, Site.stop, Node.size, Element.size]
    omega
  rw [has_selected inDocument afterStart beforeStop, notComment]
  rfl

/-- The signature is no issuer, so the first issuer is left. -/
theorem issuer_isLeft (child : ⟨position, .element element⟩ ∈ document.rootSite.children)
    (other : isIssuer (brief element) = false) :
    Hereditary (isLeft document uri ⟨position, .element element⟩ removals) (document.rootPosition + 1)
        document.root.inner ∧
      (briefs (visible (isLeft document uri ⟨position, .element element⟩ removals)
          (document.rootPosition + 1) document.root.inner)).find? isIssuer =
        (briefs document.root.inner).find? isIssuer := by
  have shows := @shows_isLeft document uri position element removals
  rcases Nat.eq_zero_or_pos removals with none | some
  · obtain ⟨hereditary, _, elements⟩ := visible_of_shows shows fun _ _ _ excepted => by
      have := excepted.1
      omega
    exact ⟨hereditary, by rw [briefs_eq_of_sketches elements]⟩
  · have same : (fun below => 0 < removals ∧ Covers ⟨position, .element element⟩ below) =
        Covers ⟨position, .element element⟩ := by
      funext below
      exact propext (and_iff_right some)
    rw [same] at shows
    obtain ⟨hereditary, found⟩ := visible_of_missing child shows fun below covered => by
      refine Bool.eq_false_iff.mpr fun stillLeft => ?_
      exact ((has_removed _ _ _ _).mp stillLeft).2 some covered
    exact ⟨hereditary, found isIssuer other⟩

end Left

/-! ### The digested octets -/

/-- What is left of a document without its signature, canonicalized, restates its document element. -/
theorem restates_of_applyAll {document : Document} {uri : String} {position : Nat} {element : Element}
    {removals : Nat} {forms : List Form} {data : Data} (valid : document.Valid)
    (faithful : document.Faithful) (child : ⟨position, .element element⟩ ∈ document.rootSite.children)
    (other : isIssuer (brief element) = false)
    (applied : applyAll (forms.map .canonical)
      (.nodes document (removed ⟨position, .element element⟩ (selected document uri) removals)) =
        .ok data) :
    Restates data.toOctets document.root := by
  obtain ⟨hereditary, issuer⟩ := @issuer_isLeft document uri position element removals child other
  have restates (form : Form) : Restates
      (form.octets document
        (some (removed ⟨position, .element element⟩ (selected document uri) removals)))
      document.root :=
    restates_octets form valid faithful (isLeft_rootPosition child) hereditary issuer
  cases forms with
  | nil =>
      cases applied
      exact restates _
  | cons form forms =>
      obtain ⟨passed, atFirst, afterFirst⟩ := applyAll_cons_eq_ok_iff.mp applied
      cases atFirst
      exact (restates form).applyAll_canonical afterFirst

private theorem restates_of_digests {document : Document} {octets : Octets} (valid : document.Valid)
    (faithful : document.Faithful) (digests : Digests document octets) :
    Restates octets document.root := by
  obtain ⟨posted, covered, found, covers, digested⟩ := digests
  rcases postedSignature?_cases document with
    ⟨_, _, unsigned⟩ | ⟨position, element, atSite, atElement, isPosted⟩
  · rw [unsigned] at found
    cases found
  · rw [isPosted] at found
    obtain ⟨signature, _, same⟩ := map_eq_ok_iff.mp found
    cases same
    have child := Site.mem_children_of_childNamed? atSite
    have stands := Document.site?_of_mem_children child
    have other : isIssuer (brief element) = false := by
      have named := Element.isNamed_of_childNamed? atElement
      rw [isIssuer_brief]
      unfold Tag.isNamed at named ⊢
      simp only [Bool.and_eq_true, decide_eq_true_eq] at named
      simp [named.1]
    obtain ⟨reference, uri, selection⟩ := covered
    obtain ⟨_, _, _, same⟩ := (coverage_eq_ok_iff child).mp covers
    simp only at same
    subst same
    obtain ⟨transforms, known, afterTransforms⟩ := bind_eq_ok_iff.mp digested
    obtain ⟨data, applied, sameOctets⟩ := bind_eq_ok_iff.mp afterTransforms
    cases sameOctets
    obtain ⟨removals, forms, _, canonicalized⟩ := (applyAll_pipeline_eq_ok_iff known stands).mp applied
    exact restates_of_applyAll valid faithful child other canonicalized

private theorem AuthnRequest.valid_of_readDocument {limits : Limits} {text : String} {document : Document}
    (isRead : AuthnRequest.readDocument limits text = .ok document) : document.Valid :=
  Document.valid_of_read? (AuthnRequest.readDocument_eq_ok_iff.mp isRead).1

/-- Two faithful documents whose signatures digest the same octets are read as the same request, with
whatever limits they were read. -/
theorem ofDocument_eq_of_digests {limits limitsToo : Limits} {text textToo : String}
    {document other : Document} {octets : Octets}
    (isRead : AuthnRequest.readDocument limits text = .ok document)
    (isReadToo : AuthnRequest.readDocument limitsToo textToo = .ok other)
    (faithful : document.Faithful) (faithfulToo : other.Faithful)
    (digests : Digests document octets) (digestsToo : Digests other octets) :
    AuthnRequest.ofDocument document = AuthnRequest.ofDocument other := by
  have restates :=
    restates_of_digests (AuthnRequest.valid_of_readDocument isRead) faithful digests
  have restatesToo :=
    restates_of_digests (AuthnRequest.valid_of_readDocument isReadToo) faithfulToo digestsToo
  exact AuthnRequest.ofRoot_eq_of_saysSame (restates.saysSame restatesToo)

/-! ### Requests that digest the same octets -/

/-- The canonical text of the nodes that the signature of a document digests, where its transforms end in
nodes. -/
def digestedText? (document : Document) : Option (List Char) :=
  match postedSignature? document with
  | .ok (some posted) =>
    match coverage document posted.site posted.signature.signedInfo with
    | .ok covered =>
      match covered.reference.pipeline posted.site.position with
      | .ok transforms =>
        match applyAll transforms (.nodes document covered.selection.nodes) with
        | .ok (.nodes whole set) =>
          some ((Form.pieces ⟨Method.default, []⟩ true (shownBy (some set)) whole).flatMap Piece.spelling)
        | _ => none
      | .error _ => none
    | .error _ => none
  | _ => none

private theorem digests_of_digestedText? {document : Document} {characters : List Char}
    (digested : digestedText? document = some characters) :
    Digests document (Octets.ofText (String.ofList characters)) := by
  unfold digestedText? at digested
  split at digested
  · rename_i posted found
    split at digested
    · rename_i covered covers
      split at digested
      · rename_i transforms known
        split at digested
        · rename_i whole set applied
          cases digested
          refine ⟨posted, covered, found, covers, ?_⟩
          exact bind_eq_ok_iff.mpr ⟨transforms, known, bind_eq_ok_iff.mpr ⟨_, applied, rfl⟩⟩
        · cases digested
      · cases digested
    · cases digested
  · cases digested

def documentOf? (characters : List Char) : Option Document := do
  let body ← Markup.afterProlog? characters
  let pieces ← Markup.readAll? body
  let document ← Document.ofMarkup? pieces
  if document.size ≤ defaultNodeLimit then pure document else none

def bothPass (check : Document → Document → Bool) (characters altered : List Char) : Bool :=
  (documentOf? characters).any fun document => (documentOf? altered).any fun other =>
    document.root.tag.isNamed Namespaces.protocol "AuthnRequest" &&
      (other.root.tag.isNamed Namespaces.protocol "AuthnRequest" && check document other)

theorem read?_ofList (characters : List Char) :
    Document.read? defaultNodeLimit (String.ofList characters) = documentOf? characters := by
  unfold Document.read?
  rw [String.toList_ofList]
  rfl

theorem readDocument_ofList {limits : Limits} {characters : List Char} {document : Document}
    (nodes : limits.nodes.toNat = defaultNodeLimit) (spelled : documentOf? characters = some document)
    (named : document.root.tag.isNamed Namespaces.protocol "AuthnRequest" = true) :
    AuthnRequest.readDocument limits (String.ofList characters) = .ok document := by
  rw [AuthnRequest.readDocument_eq_ok_iff, nodes, read?_ofList]
  exact ⟨spelled, named⟩

private theorem exists_of_bothPass {check : Document → Document → Bool} {characters altered : List Char}
    (passes : bothPass check characters altered = true) :
    ∃ document other, AuthnRequest.readDocument {} (String.ofList characters) = .ok document ∧
      AuthnRequest.readDocument {} (String.ofList altered) = .ok other ∧ check document other = true := by
  unfold bothPass at passes
  obtain ⟨document, spelled, passesToo⟩ := (Option.any_eq_true _ _).mp passes
  obtain ⟨other, spelledToo, checked⟩ := (Option.any_eq_true _ _).mp passesToo
  simp only [Bool.and_eq_true] at checked
  obtain ⟨named, namedToo, passed⟩ := checked
  exact ⟨document, other, readDocument_ofList rfl spelled named, readDocument_ofList rfl spelledToo namedToo,
    passed⟩

def posting (issuer : String) : List Char :=
    ["<samlp:AuthnRequest xmlns:samlp=\"urn:oasis:names:tc:SAML:2.0:protocol\"",
      " xmlns:saml=\"urn:oasis:names:tc:SAML:2.0:assertion\"",
      " ID=\"_1\" Version=\"2.0\"",
      " IssueInstant=\"2024-01-01T00:00:00Z\">",
      issuer,
      "<Signature xmlns=\"http://www.w3.org/2000/09/xmldsig#\">",
      "<SignedInfo>",
      "<CanonicalizationMethod",
      " Algorithm=\"http://www.w3.org/TR/2001/REC-xml-c14n-20010315\"/>",
      "<SignatureMethod",
      " Algorithm=\"http://www.w3.org/2001/04/xmldsig-more#rsa-sha256\"/>",
      "<Reference URI=\"\">",
      "<Transforms>",
      "<Transform Algorithm=",
      "\"http://www.w3.org/2000/09/xmldsig#enveloped-signature\"/>",
      "</Transforms>",
      "<DigestMethod Algorithm=",
      "\"http://www.w3.org/2001/04/xmlenc#sha256\"/>",
      "<DigestValue>AAAA</DigestValue>",
      "</Reference>",
      "</SignedInfo>",
      "<SignatureValue>AAAA</SignatureValue>",
      "</Signature>",
      "</samlp:AuthnRequest>"].flatMap String.toList

/-- A comment in the issuer changes neither the digested octets nor the request. -/
theorem ofDocument_eq_of_digests_commented :
    ∃ document other octets,
      AuthnRequest.readDocument {} (String.ofList (posting "<saml:Issuer>sp</saml:Issuer>")) =
        .ok document ∧
      AuthnRequest.readDocument {} (String.ofList (posting "<saml:Issuer>s<!-- -->p</saml:Issuer>")) =
        .ok other ∧
      document.Faithful ∧ other.Faithful ∧ Digests document octets ∧ Digests other octets ∧
      document ≠ other ∧ AuthnRequest.ofDocument document = AuthnRequest.ofDocument other := by
  have passes : bothPass
      (fun document other => document.Faithful ∧ other.Faithful ∧ document ≠ other ∧
        (digestedText? document).isSome ∧ digestedText? other = digestedText? document)
      (posting "<saml:Issuer>sp</saml:Issuer>") (posting "<saml:Issuer>s<!-- -->p</saml:Issuer>") =
        true := by
    decide +kernel
  obtain ⟨document, other, isRead, isReadToo, checked⟩ := exists_of_bothPass passes
  rw [decide_eq_true_eq] at checked
  obtain ⟨faithful, faithfulToo, different, digested, same⟩ := checked
  obtain ⟨characters, found⟩ := Option.isSome_iff_exists.mp digested
  have digests := digests_of_digestedText? found
  have digestsToo := digests_of_digestedText? (same.trans found)
  exact ⟨document, other, _, isRead, isReadToo, faithful, faithfulToo, digests, digestsToo, different,
    ofDocument_eq_of_digests isRead isReadToo faithful faithfulToo digests digestsToo⟩

/-- A faithful request and an altered one are read as different requests though their signatures digest
the same octets. -/
def AlteredUnnoticed (text altered : String) : Prop :=
  ∃ document other octets, AuthnRequest.readDocument {} text = .ok document ∧
    AuthnRequest.readDocument {} altered = .ok other ∧ document.Faithful ∧ Digests document octets ∧
    Digests other octets ∧ AuthnRequest.ofDocument document ≠ AuthnRequest.ofDocument other

private theorem alteredUnnoticed_of_bothPass {characters altered : List Char}
    (passes : bothPass
      (fun document other => document.Faithful ∧ (digestedText? document).isSome ∧
        digestedText? other = digestedText? document ∧
        AuthnRequest.ofDocument document ≠ AuthnRequest.ofDocument other)
      characters altered = true) :
    AlteredUnnoticed (String.ofList characters) (String.ofList altered) := by
  obtain ⟨document, other, isRead, isReadToo, checked⟩ := exists_of_bothPass passes
  rw [decide_eq_true_eq] at checked
  obtain ⟨faithful, digested, same, different⟩ := checked
  obtain ⟨text, found⟩ := Option.isSome_iff_exists.mp digested
  exact ⟨document, other, _, isRead, isReadToo, faithful, digests_of_digestedText? found,
    digests_of_digestedText? (same.trans found), different⟩

/-- Neither rule can be left out: binding the prefix of the issuer to the empty namespace, or declaring the
default namespace twice, takes the issuer off a request and leaves the digested octets as they were. -/
theorem alteredUnnoticed_issuer :
    AlteredUnnoticed (String.ofList (posting "<saml:Issuer>sp</saml:Issuer>"))
        (String.ofList (posting "<saml:Issuer xmlns:saml=\"\">sp</saml:Issuer>")) ∧
      AlteredUnnoticed
        (String.ofList
          (posting "<Issuer xmlns=\"urn:oasis:names:tc:SAML:2.0:assertion\">sp</Issuer>"))
        (String.ofList
          (posting "<Issuer xmlns=\"urn:x\" xmlns=\"urn:oasis:names:tc:SAML:2.0:assertion\">sp</Issuer>")) := by
  constructor
  · exact alteredUnnoticed_of_bothPass (by decide +kernel)
  · exact alteredUnnoticed_of_bothPass (by decide +kernel)

end SamlGate
