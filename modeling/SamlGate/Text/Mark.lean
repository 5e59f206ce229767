/-!
Taking text apart at fixed marks.

`after?` takes a mark off the front, `upTo?` splits at its first occurrence; both lose nothing.
-/

namespace SamlGate.Text

def after? : (mark text : List Char) → Option (List Char)
  | [], text => some text
  | _ :: _, [] => none
  | expected :: mark, found :: text => if expected = found then after? mark text else none

theorem after?_eq_some_iff {mark text rest : List Char} :
    after? mark text = some rest ↔ text = mark ++ rest := by
  induction mark generalizing text with
  | nil => simp [after?]
  | cons expected mark ih =>
    cases text with
    | nil => simp [after?]
    | cons found text =>
      by_cases same : expected = found
      · simp [after?, same, ih]
      · simp [after?, same]
        intro equal
        exact absurd equal.symm same

/-- Splits the text at the first occurrence of the mark. The characters already passed are given most
recent first. -/
def upToFrom (mark passed : List Char) : List Char → Option (List Char × List Char)
  | [] => none
  | next :: text =>
    match after? mark (next :: text) with
    | some rest => some (passed.reverse, rest)
    | none => upToFrom mark (next :: passed) text

def upTo? (mark text : List Char) : Option (List Char × List Char) :=
  upToFrom mark [] text

private theorem upToFrom_append {mark passed text before rest : List Char}
    (found : upToFrom mark passed text = some (before, rest)) :
    passed.reverse ++ text = before ++ mark ++ rest := by
  induction text generalizing passed with
  | nil => simp [upToFrom] at found
  | cons next text ih =>
    unfold upToFrom at found
    split at found
    · rename_i tail reached
      rw [after?_eq_some_iff] at reached
      simp only [Option.some.injEq, Prod.mk.injEq] at found
      rw [reached, ← found.1, ← found.2, List.append_assoc]
    · have step := ih found
      simpa using step

theorem upTo?_append {mark text before rest : List Char}
    (found : upTo? mark text = some (before, rest)) : text = before ++ mark ++ rest := by
  simpa using upToFrom_append found

def occurs (mark text : List Char) : Bool :=
  (upTo? mark text).isSome

end SamlGate.Text
