import SamlGate.Text.Octets

/-!
Elements of the distinguished encoding rules.

An element is a tag, a length and that many octets of content. A length is written in one way only: below
128 as one octet, else as the number of its octets and these octets without leading zeros. Only tags of
one octet occur, and of the universal ones only those that certificates use.

Content that is itself a sequence of elements is read as a list, so what a structure holds is matched
against the list of its parts.
-/

namespace SamlGate.Der

structure Element where
  tag : UInt8
  content : Octets
  deriving DecidableEq, Repr

/-! ### Tags -/

def booleanTag : UInt8 := 0x01
def integerTag : UInt8 := 0x02
def bitStringTag : UInt8 := 0x03
def octetStringTag : UInt8 := 0x04
def nullTag : UInt8 := 0x05
def identifierTag : UInt8 := 0x06
def utf8StringTag : UInt8 := 0x0C
def printableStringTag : UInt8 := 0x13
def teletexStringTag : UInt8 := 0x14
def asciiStringTag : UInt8 := 0x16
def shortTimeTag : UInt8 := 0x17
def longTimeTag : UInt8 := 0x18
def sequenceTag : UInt8 := 0x30
def setTag : UInt8 := 0x31

def universalTags : List UInt8 :=
  [0x01, 0x02, 0x03, 0x04, 0x05, 0x06, 0x09, 0x0A, 0x0C, 0x12, 0x13, 0x14, 0x15, 0x16, 0x17, 0x18, 0x1A,
   0x1E, 0x30, 0x31]

def isTag (octet : UInt8) : Bool :=
  if octet < 0x40 then universalTags.contains octet else octet % 32 != 31

/-- The tag belongs to the structure around the element, and its number says to which part. -/
def isContextTag (octet : UInt8) : Bool :=
  0x80 ≤ octet && octet < 0xC0

/-! ### Lengths and elements -/

def lengthOctets (length : Nat) : Octets :=
  if length < 0x80 then [UInt8.ofNat length]
  else
    let width := Nat.log2 length / 8 + 1
    UInt8.ofNat (0x80 + width) :: Octets.ofNat length width

def Element.encoding (element : Element) : Octets :=
  element.tag :: (lengthOctets element.content.length ++ element.content)

def length? : Octets → Option (Nat × Octets)
  | [] => none
  | first :: rest =>
    let width := if first < 0x80 then 0 else first.toNat - 0x80
    let length := if first < 0x80 then first.toNat else Octets.toNat (rest.take width)
    if width ≤ 4 ∧ lengthOctets length = first :: rest.take width then some (length, rest.drop width)
    else none

def element? : Octets → Option (Element × Octets)
  | [] => none
  | tag :: rest => do
    let (length, behind) ← length? rest
    if isTag tag ∧ length ≤ behind.length then
      pure (⟨tag, behind.take length⟩, behind.drop length)
    else none

/-- Reads elements to the end. Each takes at least two octets, so there are no more than octets. -/
def elementsWithin : (count : Nat) → Octets → Option (List Element)
  | _, [] => some []
  | 0, _ :: _ => none
  | count + 1, octets => do
    let (element, rest) ← element? octets
    let elements ← elementsWithin count rest
    pure (element :: elements)

def elements? (octets : Octets) : Option (List Element) :=
  elementsWithin octets.length octets

def Element.parts? (element : Element) (tag : UInt8) : Option (List Element) :=
  if element.tag = tag then elements? element.content else none

/-! ### Values -/

def isInteger : Octets → Bool
  | [] => false
  | [_] => true
  | first :: second :: _ => !(first = 0x00 && second < 0x80) && !(first = 0xFF && second ≥ 0x80)

def Element.natural? (element : Element) : Option Nat :=
  if element.tag = integerTag ∧ isInteger element.content ∧ element.content.headD 0 < 0x80 then
    some (Octets.toNat element.content)
  else none

/-- The first octet of a bit string counts the unused bits of the last. -/
def isBitString : Octets → Bool
  | [] => false
  | unused :: bits => unused ≤ 7 && (unused = 0 || !bits.isEmpty)

def isTruthValue (octets : Octets) : Bool :=
  octets = [0x00] || octets = [0xFF]

/-- Reads an arc of an object identifier at a time: seven bits an octet, the last octet below 128. An arc
has at most five octets, of which the fifth holds four bits. -/
def areArcs : (seen : Nat) → Octets → Bool
  | seen, [] => seen = 0
  | seen, octet :: rest =>
    if 4 ≤ seen ∧ octet ≥ 0x10 then false
    else if octet < 0x80 then areArcs 0 rest
    else areArcs (seen + 1) rest

def isIdentifier (octets : Octets) : Bool :=
  3 ≤ octets.length && octets.length ≤ 39 && octets.headD 0 < 120 && areArcs 0 (octets.drop 1)

/-- The octets of an arc before its last, each with the mark that more follow. -/
def arcBeginning (arc : Nat) : Octets :=
  if arc = 0 then [] else arcBeginning (arc / 128) ++ [UInt8.ofNat (128 + arc % 128)]

def arcOctets (arc : Nat) : Octets :=
  arcBeginning (arc / 128) ++ [UInt8.ofNat (arc % 128)]

def ofArcs : List Nat → Octets
  | first :: second :: rest => UInt8.ofNat (first * 40 + second) :: rest.flatMap arcOctets
  | _ => []

/-- The arcs that the octets spell, each reduced to 32 bits. -/
def arcs : (value : Nat) → Octets → List Nat
  | _, [] => []
  | value, octet :: rest =>
    let grown := (value * 128 + octet.toNat % 128) % UInt32.size
    if octet < 0x80 then grown :: arcs 0 rest else arcs grown rest

def dotted : Octets → String
  | [] => ""
  | first :: rest =>
    ".".intercalate
      ((first.toNat / 40 :: first.toNat % 40 :: arcs 0 rest).map (fun arc => toString arc))

end SamlGate.Der
