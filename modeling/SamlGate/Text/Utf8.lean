import SamlGate.Text.Octets

/-!
Where octets stop being UTF-8.

The octets are read sequence by sequence. The first octet of a sequence fixes how many follow and the
range of each; the first octet outside its range is the fault. `Fault.start` is the length of the
longest well-formed part, `Fault.width` the number of octets that belong to the broken sequence, and no
width is given when the octets end inside a sequence that was sound so far.
-/

namespace SamlGate.Utf8

structure Fault where
  start : Nat
  width : Option Nat
  deriving DecidableEq, Repr

/-- The ranges of the octets that follow a first octet, or none if no sequence starts with it. -/
def following (first : UInt8) : Option (List (UInt8 × UInt8)) :=
  if first ≤ 0x7F then some []
  else if first < 0xC2 then none
  else if first ≤ 0xDF then some [(0x80, 0xBF)]
  else if first = 0xE0 then some [(0xA0, 0xBF), (0x80, 0xBF)]
  else if first = 0xED then some [(0x80, 0x9F), (0x80, 0xBF)]
  else if first ≤ 0xEF then some [(0x80, 0xBF), (0x80, 0xBF)]
  else if first = 0xF0 then some [(0x90, 0xBF), (0x80, 0xBF), (0x80, 0xBF)]
  else if first ≤ 0xF3 then some [(0x80, 0xBF), (0x80, 0xBF), (0x80, 0xBF)]
  else if first = 0xF4 then some [(0x80, 0x8F), (0x80, 0xBF), (0x80, 0xBF)]
  else none

/-- Goes on reading inside the sequence that begins at `start`, of which `seen` octets are read and
whose remaining octets must lie in the ranges `owed`. -/
def faultFrom (start seen : Nat) : (owed : List (UInt8 × UInt8)) → Octets → Option Fault
  | [], [] => none
  | [], first :: rest =>
    match following first with
    | some owed => faultFrom (start + seen) 1 owed rest
    | none => some ⟨start + seen, some 1⟩
  | _ :: _, [] => some ⟨start, none⟩
  | (low, high) :: owed, octet :: rest =>
    if low ≤ octet ∧ octet ≤ high then faultFrom start (seen + 1) owed rest
    else some ⟨start, some seen⟩

def fault? (octets : Octets) : Option Fault :=
  faultFrom 0 0 [] octets

def read (octets : Octets) : Except Fault String :=
  match Octets.text? octets with
  | some text => .ok text
  | none => .error ((fault? octets).getD ⟨octets.length, none⟩)

def Fault.message (fault : Fault) : String :=
  match fault.width with
  | some width => s!"invalid utf-8 sequence of {width} bytes from index {fault.start}"
  | none => s!"incomplete utf-8 byte sequence from index {fault.start}"

theorem read_eq_ok_iff {octets : Octets} {text : String} :
    read octets = .ok text ↔ octets = Octets.ofText text := by
  unfold read
  rw [← Octets.text?_eq_some_iff]
  cases Octets.text? octets <;> simp

@[simp] theorem read_ofText (text : String) : read (Octets.ofText text) = .ok text :=
  read_eq_ok_iff.2 rfl

end SamlGate.Utf8
