import SamlGate.Xml.Position

/-!
What a sequence of nodes adds up to.

The tags, leaves and texts of a sequence are gathered node by node, and so are its comments and
instructions. An element that is still open holds its nodes most recent first, and what is gathered from them
grows at the end when a node is added, even where a text joins the one before it.
-/

namespace SamlGate.Xml

def Content.tags : Content → List Tag
  | .done => []
  | .leaf _ rest => rest.tags
  | .element tag inner rest => tag :: inner.tags ++ rest.tags

def Content.leaves : Content → List Leaf
  | .done => []
  | .leaf first rest => first :: rest.leaves
  | .element _ inner rest => inner.leaves ++ rest.leaves

def Content.miscs : Content → List Misc
  | .done => []
  | .leaf (.text _) rest => rest.miscs
  | .leaf (.misc item) rest => item :: rest.miscs
  | .element _ inner rest => inner.miscs ++ rest.miscs

def Document.miscs (document : Document) : List Misc :=
  document.before ++ document.root.inner.miscs ++ document.after

def Element.tags (element : Element) : List Tag :=
  element.tag :: element.inner.tags

def Content.push (rest : Content) : Leaf ⊕ Element → Content
  | .inl first => .leaf first rest
  | .inr first => .element first.tag first.inner rest

private theorem Content.ofReversed_eq_foldl (held : List (Leaf ⊕ Element)) :
    Content.ofReversed held = held.foldl Content.push .done :=
  rfl

/-- Something that is gathered from a sequence node by node. -/
structure Gathered {β : Type} (gather : Content → List β) (part : Leaf ⊕ Element → List β) : Prop where
  onDone : gather .done = []
  onLeaf : ∀ first rest, gather (.leaf first rest) = part (.inl first) ++ gather rest
  onElement : ∀ tag inner rest,
    gather (.element tag inner rest) = part (.inr ⟨tag, inner⟩) ++ gather rest

/-- What is gathered from a text that joins another is gathered from both. -/
def Joins {β : Type} (part : Leaf ⊕ Element → List β) : Prop :=
  ∀ characters more,
    part (.inl (.text (characters ++ more))) = part (.inl (.text characters)) ++ part (.inl (.text more))

section Gathering

variable {β : Type} {gather : Content → List β} {part : Leaf ⊕ Element → List β}

private theorem gather_foldl (gathered : Gathered gather part) (held : List (Leaf ⊕ Element))
    (rest : Content) :
    gather (held.foldl Content.push rest) = held.reverse.flatMap part ++ gather rest := by
  induction held generalizing rest with
  | nil =>
      rfl
  | cons item held ih =>
      rw [List.foldl_cons, ih, List.reverse_cons, List.flatMap_append, List.append_assoc]
      cases item with
      | inl first =>
          simp [Content.push, gathered.onLeaf]
      | inr first =>
          simp [Content.push, gathered.onElement]

theorem Gathered.ofReversed (gathered : Gathered gather part) (held : List (Leaf ⊕ Element)) :
    gather (Content.ofReversed held) = held.reverse.flatMap part := by
  rw [Content.ofReversed_eq_foldl, gather_foldl gathered, gathered.onDone, List.append_nil]

theorem Gathered.add (gathered : Gathered gather part) (joins : Joins part) (opened : OpenElement)
    (item : Leaf ⊕ Element) :
    gather (Content.ofReversed (opened.add item).held) =
      gather (Content.ofReversed opened.held) ++ part item := by
  have last (held : List (Leaf ⊕ Element)) :
      (item :: held).reverse.flatMap part = held.reverse.flatMap part ++ part item := by
    simp
  rw [gathered.ofReversed, gathered.ofReversed]
  unfold OpenElement.add
  split
  · rename_i more characters earlier same
    simp [same, joins characters more]
  · exact last opened.held

end Gathering

@[simp] theorem OpenElement.add_tag (opened : OpenElement) (item : Leaf ⊕ Element) :
    (opened.add item).tag = opened.tag := by
  unfold OpenElement.add
  split
  · rfl
  · rfl

theorem gathered_miscs :
    Gathered Content.miscs (fun item =>
      match item with
      | .inl (.text _) => []
      | .inl (.misc item) => [item]
      | .inr element => element.inner.miscs) where
  onDone := rfl
  onLeaf := fun first _ => by
    cases first with
    | text characters =>
        rfl
    | misc item =>
        rfl
  onElement := fun _ _ _ => rfl

/-! ### Texts -/

theorem Content.text_leaf (first : Leaf) (rest : Content) :
    (Content.leaf first rest).text = (Content.leaf first .done).text ++ rest.text := by
  cases first with
  | text characters =>
      simp [Content.text]
  | misc item =>
      simp [Content.text]

/-- The sequence with a leaf in front. A text joins a text that it touches. -/
def Content.joined (first : Leaf) (rest : Content) : Content :=
  match first, rest with
  | .text characters, .leaf (.text more) behind => .leaf (.text (characters ++ more)) behind
  | first, rest => .leaf first rest

theorem Content.text_joined (first : Leaf) (rest : Content) :
    (Content.joined first rest).text = (Content.leaf first rest).text := by
  unfold Content.joined
  split
  · simp [Content.text]
  · rfl

theorem Content.tags_joined (first : Leaf) (rest : Content) :
    (Content.joined first rest).tags = rest.tags := by
  unfold Content.joined
  split
  · rfl
  · rfl

/-- The sequence with text in front; no text adds no node. -/
def Content.withText (characters : List Char) (rest : Content) : Content :=
  if characters = [] then rest else .joined (.text (String.ofList characters)) rest

private theorem joined_append (front back : String) (rest : Content) :
    Content.joined (.text (front ++ back)) rest =
      .joined (.text front) (.joined (.text back) rest) := by
  cases rest with
  | done =>
      rfl
  | leaf first rest =>
      cases first with
      | text more =>
          simp [Content.joined, String.append_assoc]
      | misc item =>
          rfl
  | element tag inner rest =>
      rfl

theorem Content.withText_append (front back : List Char) (rest : Content) :
    rest.withText (front ++ back) = (rest.withText back).withText front := by
  unfold Content.withText
  by_cases noFront : front = []
  · simp [noFront]
  · by_cases noBack : back = []
    · simp [noBack]
    · rw [if_neg noBack, if_neg noFront, if_neg (by simp [noFront]), String.ofList_append, joined_append]

theorem Content.text_withText (characters : List Char) (rest : Content) :
    (rest.withText characters).text = characters ++ rest.text := by
  unfold Content.withText
  split
  · rename_i nothing
    simp [nothing]
  · rw [Content.text_joined]
    simp [Content.text]

theorem Content.tags_withText (characters : List Char) (rest : Content) :
    (rest.withText characters).tags = rest.tags := by
  unfold Content.withText
  split
  · rfl
  · exact Content.tags_joined _ rest

theorem Content.miscs_withText (characters : List Char) (rest : Content) :
    (rest.withText characters).miscs = rest.miscs := by
  unfold Content.withText Content.joined
  split
  · rfl
  · split
    · rfl
    · rfl

theorem Content.size_withText_le (characters : List Char) (rest : Content) :
    (rest.withText characters).size ≤ rest.size + 1 := by
  unfold Content.withText
  split
  · omega
  · unfold Content.joined
    split
    · simp [Content.size]
    · simp [Content.size]

/-! ### Sequences that match -/

/-- Two sequences match node for node: their leaves are equal, and their tags are related. -/
inductive Content.Matches (same : Tag → Tag → Prop) : Content → Content → Prop
  | done : Matches same .done .done
  | leaf (first : Leaf) {rest other : Content} (behind : Matches same rest other) :
      Matches same (.leaf first rest) (.leaf first other)
  | element {tag other : Tag} {inner innerToo rest restToo : Content} (here : same tag other)
      (below : Matches same inner innerToo) (behind : Matches same rest restToo) :
      Matches same (.element tag inner rest) (.element other innerToo restToo)

theorem Content.Matches.imp {same sameToo : Tag → Tag → Prop} {content other : Content}
    (implies : ∀ tag other, same tag other → sameToo tag other) (alike : content.Matches same other) :
    content.Matches sameToo other := by
  induction alike with
  | done =>
      exact .done
  | leaf first _ ih =>
      exact .leaf first ih
  | element here _ _ ihInner ihRest =>
      exact .element (implies _ _ here) ihInner ihRest

theorem Content.Matches.forall_tags {same : Tag → Tag → Prop} {holds : Tag → Prop} {content other : Content}
    (implies : ∀ tag other, same tag other → holds tag) (alike : content.Matches same other) :
    ∀ tag ∈ content.tags, holds tag := by
  induction alike with
  | done =>
      exact nofun
  | leaf _ _ ih =>
      exact ih
  | element here _ _ ihInner ihRest =>
      exact List.forall_mem_cons.mpr ⟨implies _ _ here, List.forall_mem_append.mpr ⟨ihInner, ihRest⟩⟩

theorem Content.Matches.size {same : Tag → Tag → Prop} {content other : Content}
    (alike : content.Matches same other) : other.size = content.size := by
  induction alike with
  | done =>
      rfl
  | leaf _ _ ih =>
      rw [Content.size, Content.size, ih]
  | element _ _ _ ihInner ihRest =>
      rw [Content.size, Content.size, ihInner, ihRest]

theorem Content.Matches.text {same : Tag → Tag → Prop} {content other : Content}
    (alike : content.Matches same other) : other.text = content.text := by
  induction alike with
  | done =>
      rfl
  | @leaf first rest other _ ih =>
      rw [Content.text_leaf first other, Content.text_leaf first rest, ih]
  | element _ _ _ ihInner ihRest =>
      rw [Content.text, Content.text, ihInner, ihRest]

end SamlGate.Xml
