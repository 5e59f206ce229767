import Mathlib.Data.List.Basic

/-!
Lines of a text.

Texts that are written one after the other, each with a line break behind it, are read again as lines exactly
where none of them has a line break of its own. A text with line breaks is read as several lines. The label
that it begins with is on the first of them only, and the others begin with whatever follows a break.
-/

namespace SamlGate.Text

def Unbroken (text : String) : Prop :=
  '\n' ∉ text.toList

instance : DecidablePred Unbroken :=
  fun text => inferInstanceAs (Decidable ('\n' ∉ text.toList))

/-- The parts of a text between its line breaks. There is at least one. -/
def parts (text : String) : List String :=
  (text.toList.splitOn '\n').map String.ofList

/-- The lines of a text. What follows the last line break is a line if it is not empty. -/
def lines (text : String) : List String :=
  if (parts text).getLast? = some "" then (parts text).dropLast else parts text

/-- The lines that a text starts behind line breaks of its own. -/
def started (text : String) : List String :=
  (parts text).tail

theorem unbroken_append_iff {left right : String} :
    Unbroken (left ++ right) ↔ Unbroken left ∧ Unbroken right := by
  simp [Unbroken]

/-! ### Parts -/

private theorem not_mem_of_mem_splitOn {separator : Char} {characters piece : List Char}
    (member : piece ∈ characters.splitOn separator) : separator ∉ piece := by
  induction characters generalizing piece with
  | nil =>
      rw [List.splitOn_nil, List.mem_singleton] at member
      rw [member]
      exact List.not_mem_nil
  | cons character rest ih =>
      cases pieces : rest.splitOn separator with
      | nil =>
          exact absurd pieces (List.splitOn_ne_nil separator rest)
      | cons first others =>
          rw [pieces] at ih
          rw [List.splitOn_cons_eq_if_modifyHead, pieces] at member
          by_cases separates : character = separator
          · rw [if_pos (beq_iff_eq.mpr separates)] at member
            rcases List.mem_cons.mp member with empty | later
            · rw [empty]
              exact List.not_mem_nil
            · exact ih later
          · rw [if_neg (by simpa using separates), List.modifyHead_cons] at member
            rcases List.mem_cons.mp member with isFirst | later
            · rw [isFirst]
              exact List.not_mem_cons_of_ne_of_not_mem (Ne.symm separates) (ih List.mem_cons_self)
            · exact ih (List.mem_cons_of_mem first later)

private theorem unbroken_of_mem_parts {text part : String} (member : part ∈ parts text) :
    Unbroken part := by
  obtain ⟨piece, among, same⟩ := List.mem_map.mp member
  rw [Unbroken, ← same, String.toList_ofList]
  exact not_mem_of_mem_splitOn among

private theorem parts_of_unbroken {text : String} (unbroken : Unbroken text) : parts text = [text] := by
  unfold parts
  rw [List.splitOn_eq_singleton unbroken, List.map_singleton, String.ofList_toList]

private theorem parts_append_break (front back : String) :
    parts (front ++ "\n" ++ back) = parts front ++ parts back := by
  have characters : (front ++ "\n" ++ back).toList = front.toList ++ '\n' :: back.toList := by simp
  unfold parts
  rw [characters, List.splitOn_append_cons_self, List.map_append]

private theorem parts_append {label : String} (unbroken : Unbroken label) {text first : String}
    {others : List String} (divides : parts text = first :: others) :
    parts (label ++ text) = (label ++ first) :: others := by
  obtain ⟨piece, pieces, split, isFirst, areOthers⟩ := List.map_eq_cons_iff.mp divides
  have joined (front : List Char) (plain : '\n' ∉ front) :
      (front ++ text.toList).splitOn '\n' = (front ++ piece) :: pieces := by
    induction front with
    | nil =>
        exact split
    | cons character front ih =>
        have notBreak : ¬ (character == '\n') = true := by
          intro same
          exact List.ne_of_not_mem_cons plain (beq_iff_eq.mp same).symm
        rw [List.cons_append, List.splitOn_cons_eq_if_modifyHead, if_neg notBreak,
          ih (List.not_mem_of_not_mem_cons plain), List.modifyHead_cons, List.cons_append]
  unfold parts
  rw [String.toList_append, joined label.toList unbroken, List.map_cons, areOthers, String.ofList_append,
    String.ofList_toList, isFirst]

private theorem exists_parts_eq (text : String) : ∃ first, parts text = first :: started text := by
  cases divides : parts text with
  | nil =>
      exact absurd (List.map_eq_nil_iff.mp divides) (List.splitOn_ne_nil '\n' text.toList)
  | cons first others =>
      exact ⟨first, by rw [started, divides, List.tail_cons]⟩

theorem started_eq_nil_iff {text : String} : started text = [] ↔ Unbroken text := by
  constructor
  · intro none
    obtain ⟨first, divides⟩ := exists_parts_eq text
    rw [none] at divides
    obtain ⟨piece, _, split, _, areNone⟩ := List.map_eq_cons_iff.mp divides
    have joined : ['\n'].intercalate (text.toList.splitOn '\n') = text.toList :=
      List.intercalate_splitOn '\n'
    rw [split, List.map_eq_nil_iff.mp areNone] at joined
    have whole : text.toList = piece := by simpa using joined.symm
    rw [Unbroken, whole]
    exact not_mem_of_mem_splitOn (split ▸ List.mem_cons_self)
  · intro unbroken
    rw [started, parts_of_unbroken unbroken, List.tail_cons]

/-! ### Lines -/

private theorem parts_join (texts : List String) :
    parts (String.join (texts.map fun text => text ++ "\n")) = texts.flatMap parts ++ [""] := by
  induction texts with
  | nil =>
      rfl
  | cons text texts ih =>
      rw [List.map_cons, String.join_cons, parts_append_break, ih, List.flatMap_cons, List.append_assoc]

theorem lines_join (texts : List String) :
    lines (String.join (texts.map fun text => text ++ "\n")) = texts.flatMap parts := by
  unfold lines
  rw [parts_join, List.getLast?_concat, if_pos rfl, List.dropLast_concat]

theorem flatMap_parts_eq_self_iff {texts : List String} :
    texts.flatMap parts = texts ↔ ∀ text ∈ texts, Unbroken text := by
  constructor
  · intro same text member
    rw [← same] at member
    obtain ⟨_, _, inParts⟩ := List.mem_flatMap.mp member
    exact unbroken_of_mem_parts inParts
  · intro unbroken
    induction texts with
    | nil =>
        rfl
    | cons text texts ih =>
        obtain ⟨here, later⟩ := List.forall_mem_cons.mp unbroken
        rw [List.flatMap_cons, parts_of_unbroken here, ih later, List.singleton_append]

/-! ### Labels -/

def Begins (mark text : String) : Prop :=
  mark.toList <+: text.toList

instance (mark : String) : DecidablePred (Begins mark) :=
  fun text => inferInstanceAs (Decidable (mark.toList <+: text.toList))

def linesBeginning (mark text : String) : List String :=
  (lines text).filter fun line => Begins mark line

/-- Neither begins with the other, so no text begins with both. -/
def Differ (left right : String) : Prop :=
  ¬ Begins left right ∧ ¬ Begins right left

instance : DecidableRel Differ :=
  fun _ _ => inferInstanceAs (Decidable (_ ∧ _))

private theorem begins_append (mark text : String) : Begins mark (mark ++ text) := by
  rw [Begins, String.toList_append]
  exact List.prefix_append mark.toList text.toList

theorem Differ.symm {left right : String} (differ : Differ left right) : Differ right left :=
  ⟨differ.2, differ.1⟩

private theorem Differ.not_begins_append {mark label : String} (differ : Differ mark label)
    (text : String) :
    ¬ Begins mark (label ++ text) := by
  intro begins
  rw [Begins, String.toList_append] at begins
  have labelled : label.toList <+: label.toList ++ text.toList := List.prefix_append _ _
  rcases List.prefix_or_prefix_of_prefix begins labelled with longer | shorter
  · exact differ.1 longer
  · exact differ.2 shorter

structure Labelled where
  label : String
  value : String
  deriving DecidableEq, Repr

def Labelled.text (item : Labelled) : String :=
  item.label ++ item.value

/-- The items one after the other, each with a line break behind it. -/
def listed (items : List Labelled) : String :=
  String.join ((items.map Labelled.text).map fun text => text ++ "\n")

/-- The lines that the values of the items start. -/
def startedBy (items : List Labelled) : List String :=
  items.flatMap fun item => started item.value

/-- The labels can be told apart where lines begin. -/
structure WellLabelled (items : List Labelled) : Prop where
  unbroken : ∀ item ∈ items, Unbroken item.label
  differ : items.Pairwise fun left right => Differ left.label right.label

variable {items : List Labelled} {mark value : String}

private theorem Labelled.exists_parts_text_eq {item : Labelled} (unbroken : Unbroken item.label) :
    ∃ first, parts item.value = first :: started item.value ∧
      parts item.text = (item.label ++ first) :: started item.value := by
  obtain ⟨first, divides⟩ := exists_parts_eq item.value
  exact ⟨first, divides, parts_append unbroken divides⟩

private theorem startedBy_cons (item : Labelled) (items : List Labelled) :
    startedBy (item :: items) = started item.value ++ startedBy items :=
  List.flatMap_cons

private theorem startedBy_append (before after : List Labelled) :
    startedBy (before ++ after) = startedBy before ++ startedBy after :=
  List.flatMap_append

theorem startedBy_eq_nil_iff : startedBy items = [] ↔ ∀ item ∈ items, Unbroken item.value := by
  unfold startedBy
  rw [List.flatMap_eq_nil_iff]
  constructor
  · intro none item member
    exact started_eq_nil_iff.mp (none item member)
  · intro unbroken item member
    exact started_eq_nil_iff.mpr (unbroken item member)

/-- Among items with other labels, only what values start can begin with the mark. -/
theorem filter_parts_of_differ (unbroken : ∀ item ∈ items, Unbroken item.label)
    (differ : ∀ item ∈ items, Differ mark item.label) :
    ((items.map Labelled.text).flatMap parts).filter (fun line => Begins mark line) =
      (startedBy items).filter fun line => Begins mark line := by
  induction items with
  | nil =>
      rfl
  | cons item items ih =>
      obtain ⟨here, later⟩ := List.forall_mem_cons.mp unbroken
      obtain ⟨differHere, differLater⟩ := List.forall_mem_cons.mp differ
      obtain ⟨first, _, divided⟩ := Labelled.exists_parts_text_eq here
      have notFirst : ¬ Begins mark (item.label ++ first) := differHere.not_begins_append first
      rw [List.map_cons, List.flatMap_cons, List.filter_append, divided,
        List.filter_cons_of_neg (by simpa using notFirst), ih later differLater, startedBy_cons,
        List.filter_append]

/-- There is a line for every item and for every line that a value starts. -/
theorem length_lines_listed (unbroken : ∀ item ∈ items, Unbroken item.label) :
    (lines (listed items)).length = items.length + (startedBy items).length := by
  rw [listed, lines_join]
  induction items with
  | nil =>
      rfl
  | cons item items ih =>
      obtain ⟨here, later⟩ := List.forall_mem_cons.mp unbroken
      obtain ⟨first, _, divided⟩ := Labelled.exists_parts_text_eq here
      rw [List.map_cons, List.flatMap_cons, List.length_append, divided, ih later, startedBy_cons,
        List.length_append, List.length_cons, List.length_cons]
      omega

namespace WellLabelled

theorem lines_listed_eq_iff (labelled : WellLabelled items) :
    lines (listed items) = items.map Labelled.text ↔ startedBy items = [] := by
  rw [listed, lines_join, flatMap_parts_eq_self_iff, startedBy_eq_nil_iff, List.forall_mem_map]
  constructor
  · intro unbroken item member
    exact (unbroken_append_iff.mp (unbroken item member)).2
  · intro unbroken item member
    exact unbroken_append_iff.mpr ⟨labelled.unbroken item member, unbroken item member⟩

/-- The lines that begin with the label of an item are its first line and some that values start. -/
theorem linesBeginning_listed_append {before after : List Labelled} {first : String}
    (labelled : WellLabelled (before ++ ⟨mark, value⟩ :: after))
    (divided : parts (Labelled.text ⟨mark, value⟩) = (mark ++ first) :: started value) :
    linesBeginning mark (listed (before ++ ⟨mark, value⟩ :: after)) =
      (startedBy before).filter (fun line => Begins mark line) ++
        (mark ++ first) ::
          ((started value).filter (fun line => Begins mark line) ++
            (startedBy after).filter fun line => Begins mark line) := by
  obtain ⟨unbrokenBefore, unbrokenRest⟩ := List.forall_mem_append.mp labelled.unbroken
  obtain ⟨_, unbrokenAfter⟩ := List.forall_mem_cons.mp unbrokenRest
  obtain ⟨_, pairedRest, paired⟩ := List.pairwise_append.mp labelled.differ
  obtain ⟨differAfter, _⟩ := List.pairwise_cons.mp pairedRest
  have differBefore : ∀ item ∈ before, Differ mark item.label := by
    intro item inBefore
    exact (paired item inBefore ⟨mark, value⟩ List.mem_cons_self).symm
  rw [linesBeginning, listed, lines_join, List.map_append, List.flatMap_append, List.filter_append,
    filter_parts_of_differ unbrokenBefore differBefore, List.map_cons, List.flatMap_cons,
    List.filter_append, filter_parts_of_differ unbrokenAfter differAfter, divided,
    List.filter_cons_of_pos (by simpa using begins_append mark first), List.cons_append]

/-- Of the lines only one begins with the label of an item and has its value, exactly where the value has no
line break and no value starts a line that begins with the label. -/
theorem linesBeginning_listed_eq_iff (labelled : WellLabelled items) (member : ⟨mark, value⟩ ∈ items) :
    linesBeginning mark (listed items) = [mark ++ value] ↔
      Unbroken value ∧ ∀ line ∈ startedBy items, ¬ Begins mark line := by
  have unbrokenMark : Unbroken mark := labelled.unbroken ⟨mark, value⟩ member
  obtain ⟨before, after, same⟩ := List.append_of_mem member
  subst same
  obtain ⟨first, divides, divided⟩ := @Labelled.exists_parts_text_eq ⟨mark, value⟩ unbrokenMark
  have noneStarted : (∀ line ∈ startedBy (before ++ ⟨mark, value⟩ :: after), ¬ Begins mark line) ↔
      (startedBy before).filter (fun line => Begins mark line) = [] ∧
        (started value).filter (fun line => Begins mark line) = [] ∧
        (startedBy after).filter (fun line => Begins mark line) = [] := by
    simp only [startedBy_append, startedBy_cons, List.forall_mem_append, List.filter_eq_nil_iff,
      decide_eq_true_eq]
  rw [noneStarted, labelled.linesBeginning_listed_append divided]
  constructor
  · intro single
    obtain ⟨noneBefore, rest⟩ | ⟨_, impossible⟩ := List.append_eq_singleton_iff.mp single
    · obtain ⟨isWhole, noneBehind⟩ := List.cons.inj rest
      obtain ⟨noneInside, noneAfter⟩ := List.append_eq_nil_iff.mp noneBehind
      have whole : first = value := by simpa using isWhole
      have isPart : value ∈ parts value := by
        rw [divides, whole]
        exact List.mem_cons_self
      exact ⟨unbroken_of_mem_parts isPart, noneBefore, noneInside, noneAfter⟩
    · exact absurd impossible (List.cons_ne_nil _ _)
  · rintro ⟨unbrokenValue, noneBefore, noneInside, noneAfter⟩
    rw [parts_of_unbroken unbrokenValue] at divides
    rw [noneBefore, noneInside, noneAfter, ← (List.cons.inj divides).1]
    rfl

theorem mem_linesBeginning (labelled : WellLabelled items) (member : ⟨mark, value⟩ ∈ items)
    (unbroken : Unbroken value) : mark ++ value ∈ linesBeginning mark (listed items) := by
  have whole : Unbroken (Labelled.text ⟨mark, value⟩) :=
    unbroken_append_iff.mpr ⟨labelled.unbroken _ member, unbroken⟩
  refine List.mem_filter.mpr ⟨?_, decide_eq_true (begins_append mark value)⟩
  rw [listed, lines_join]
  refine List.mem_flatMap.mpr ⟨_, List.mem_map_of_mem member, ?_⟩
  rw [parts_of_unbroken whole]
  exact List.mem_cons_self

end WellLabelled

end SamlGate.Text
