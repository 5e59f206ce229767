/-!
Octets and the text they spell.

A message travels as octets and is read as text. `Octets.ofText` spells a text in UTF-8,
`Octets.text?` reads one back, and the two undo each other: an octet string spells at most one text,
and two texts never share a spelling.

This file does not say where an unreadable octet string goes wrong; that is `SamlGate.Text.Utf8`.
-/

namespace SamlGate

abbrev Octets := List UInt8

def Octets.ofText (text : String) : Octets :=
  text.toUTF8.data.toList

def Octets.text? (octets : Octets) : Option String :=
  String.fromUTF8? ⟨octets.toArray⟩

/-- The octets of a big-endian number without leading zero octets; none for zero. -/
def Octets.toNat (octets : Octets) : Nat :=
  octets.foldl (fun value octet => value * 256 + octet.toNat) 0

/-- The last `width` octets of the big-endian spelling of a number. -/
def Octets.ofNat (value : Nat) : (width : Nat) → Octets
  | 0 => []
  | width + 1 => Octets.ofNat (value / 256) width ++ [UInt8.ofNat (value % 256)]

def Octets.hex (octets : Octets) : String :=
  String.ofList (octets.flatMap fun octet =>
    [Nat.digitChar (octet.toNat / 16), Nat.digitChar (octet.toNat % 16)])

theorem Octets.text?_ofText (text : String) : Octets.text? (Octets.ofText text) = some text := by
  have valid : text.toByteArray.IsValidUTF8 := text.isValidUTF8
  simp [Octets.text?, Octets.ofText, String.fromUTF8?, valid, String.fromUTF8]

private theorem Octets.ofText_of_text? {octets : Octets} {text : String}
    (reads : Octets.text? octets = some text) : Octets.ofText text = octets := by
  unfold Octets.text? String.fromUTF8? at reads
  split at reads
  · cases reads
    simp [Octets.ofText, String.fromUTF8]
  · cases reads

theorem Octets.text?_eq_some_iff {octets : Octets} {text : String} :
    Octets.text? octets = some text ↔ octets = Octets.ofText text :=
  ⟨fun reads => (Octets.ofText_of_text? reads).symm,
    fun spelled => spelled ▸ Octets.text?_ofText text⟩

theorem Octets.ofText_inj {left right : String} :
    Octets.ofText left = Octets.ofText right ↔ left = right := by
  constructor
  · intro same
    have read := Octets.text?_ofText left
    rw [same, Octets.text?_ofText right] at read
    exact (Option.some.inj read).symm
  · intro same
    rw [same]

theorem Octets.ofText_append (left right : String) :
    Octets.ofText (left ++ right) = Octets.ofText left ++ Octets.ofText right := by
  simp [Octets.ofText]

end SamlGate
