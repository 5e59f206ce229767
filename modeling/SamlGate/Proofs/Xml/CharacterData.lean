import SamlGate.Xml.CharacterData

/-!
Character data stays permitted.

What written character data stands for has allowed characters only: those written are, a reference names no
other, and a line end becomes a line feed or a space.
-/

namespace SamlGate.Xml

def Permitted (characters : List Char) : Prop :=
  ∀ character ∈ characters, isAllowed character = true

def Glyph.character : Glyph → Char
  | .literal character => character
  | .reference character => character

theorem permitted_cons_iff {first : Char} {rest : List Char} :
    Permitted (first :: rest) ↔ isAllowed first = true ∧ Permitted rest :=
  List.forall_mem_cons

theorem permitted_append_iff {front back : List Char} :
    Permitted (front ++ back) ↔ Permitted front ∧ Permitted back :=
  List.forall_mem_append

theorem permitted_reverse_iff {characters : List Char} :
    Permitted characters.reverse ↔ Permitted characters := by
  simp [Permitted]

theorem permitted_iff_all {characters : List Char} :
    Permitted characters ↔ characters.all isAllowed = true :=
  List.all_eq_true.symm

/-! ### References -/

private theorem isAllowed_of_numbered? {base : Nat} {digits : List Char} {character : Char}
    (named : numbered? base digits = some character) : isAllowed character = true := by
  unfold numbered? at named
  split at named
  · cases named
  · split at named
    · cases named
    · obtain ⟨allowed, same⟩ := Option.ite_none_right_eq_some.mp named
      cases Option.some.inj same
      exact allowed

private theorem isAllowed_of_referenced? {name : List Char} {character : Char}
    (named : referenced? name = some character) : isAllowed character = true := by
  unfold referenced? at named
  split at named
  · exact isAllowed_of_numbered? named
  · exact isAllowed_of_numbered? named
  · repeat' split at named
    all_goals
      cases named
    all_goals
      decide

private theorem isAllowed_of_glyphsFrom {open? : Option (List Char)} {before glyphs : List Glyph}
    {written : List Char} (permitted : Permitted written)
    (allowed : ∀ glyph ∈ before, isAllowed glyph.character = true)
    (isRead : glyphsFrom open? before written = some glyphs) :
    ∀ glyph ∈ glyphs, isAllowed glyph.character = true := by
  induction written generalizing open? before with
  | nil =>
      unfold glyphsFrom at isRead
      split at isRead
      · cases isRead
        intro glyph member
        exact allowed glyph (List.mem_reverse.mp member)
      · cases isRead
  | cons character rest ih =>
      obtain ⟨here, later⟩ := permitted_cons_iff.mp permitted
      have allowedWith (added : Glyph) (addedAllowed : isAllowed added.character = true) :
          ∀ glyph ∈ added :: before, isAllowed glyph.character = true :=
        List.forall_mem_cons.mpr ⟨addedAllowed, allowed⟩
      unfold glyphsFrom at isRead
      split at isRead
      · split at isRead
        · exact ih later allowed isRead
        · exact ih later (allowedWith (.literal character) here) isRead
      · split at isRead
        · split at isRead
          · rename_i named found
            exact ih later (allowedWith (.reference named) (isAllowed_of_referenced? found)) isRead
          · cases isRead
        · exact ih later allowed isRead

private theorem isAllowed_of_glyphs? {written : List Char} {glyphs : List Glyph}
    (permitted : Permitted written)
    (isRead : glyphs? written = some glyphs) : ∀ glyph ∈ glyphs, isAllowed glyph.character = true :=
  isAllowed_of_glyphsFrom permitted (by simp) isRead

/-! ### Line ends -/

private theorem permitted_lineFeedsFrom {shielded : Bool} {done : List Char} {glyphs : List Glyph}
    (permitted : Permitted done) (allowed : ∀ glyph ∈ glyphs, isAllowed glyph.character = true) :
    Permitted (lineFeedsFrom shielded done glyphs) := by
  have lineFeed : isAllowed '\n' = true := by decide
  have carriageReturn : isAllowed '\r' = true := by decide
  induction glyphs generalizing shielded done with
  | nil =>
      exact permitted_reverse_iff.mpr permitted
  | cons glyph rest ih =>
      obtain ⟨here, later⟩ := List.forall_mem_cons.mp allowed
      have goesOn {further : Bool} {added : Char} (addedAllowed : isAllowed added = true) :
          Permitted (lineFeedsFrom further (added :: done) rest) :=
        ih (permitted_cons_iff.mpr ⟨addedAllowed, permitted⟩) later
      cases glyph with
      | reference character =>
          exact goesOn here
      | literal character =>
          unfold lineFeedsFrom
          split
          · split
            · refine permitted_reverse_iff.mpr (permitted_cons_iff.mpr ⟨?_, permitted⟩)
              split
              · exact carriageReturn
              · exact lineFeed
            · exact goesOn carriageReturn
            · split
              · exact ih permitted later
              · exact goesOn lineFeed
          · exact goesOn here

private theorem permitted_spacesFrom {done : List Char} {glyphs : List Glyph} (permitted : Permitted done)
    (allowed : ∀ glyph ∈ glyphs, isAllowed glyph.character = true) :
    Permitted (spacesFrom done glyphs) := by
  have space : isAllowed ' ' = true := by decide
  induction glyphs generalizing done with
  | nil =>
      exact permitted_reverse_iff.mpr permitted
  | cons glyph rest ih =>
      obtain ⟨here, later⟩ := List.forall_mem_cons.mp allowed
      have goesOn {added : Char} (addedAllowed : isAllowed added = true) :
          Permitted (spacesFrom (added :: done) rest) :=
        ih (permitted_cons_iff.mpr ⟨addedAllowed, permitted⟩) later
      cases glyph with
      | reference character =>
          exact goesOn here
      | literal character =>
          unfold spacesFrom
          split
          · exact ih permitted later
          · split
            · exact goesOn space
            · exact goesOn here

theorem permitted_of_text? {written text : List Char} (permitted : Permitted written)
    (isRead : text? written = some text) : Permitted text := by
  unfold text? at isRead
  obtain ⟨glyphs, spelled, same⟩ := Option.map_eq_some_iff.mp isRead
  subst same
  exact permitted_lineFeedsFrom (by simp [Permitted]) (isAllowed_of_glyphs? permitted spelled)

theorem permitted_of_attributeValue? {written value : List Char} (permitted : Permitted written)
    (isRead : attributeValue? written = some value) : Permitted value := by
  unfold attributeValue? at isRead
  obtain ⟨glyphs, spelled, same⟩ := Option.map_eq_some_iff.mp isRead
  subst same
  exact permitted_spacesFrom (by simp [Permitted]) (isAllowed_of_glyphs? permitted spelled)

theorem permitted_verbatimText {written : List Char} (permitted : Permitted written) :
    Permitted (verbatimText written) := by
  refine permitted_lineFeedsFrom (by simp [Permitted]) ?_
  intro glyph member
  obtain ⟨character, inWritten, same⟩ := List.mem_map.mp member
  subst same
  exact permitted character inWritten

end SamlGate.Xml
