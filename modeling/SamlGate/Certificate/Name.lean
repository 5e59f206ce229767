import SamlGate.Certificate.Descriptor
import SamlGate.Text.Utf8

/-!
Distinguished names.

A name is a sequence of sets of typed values. It is written from its last set to its first, with the
descriptor of each type. A value that is no plain text, or whose type has no descriptor, is written as
the octets of its element. The characters that separate parts of a written name are escaped in values.
-/

namespace SamlGate.Certificate

structure NamePart where
  identifier : Octets
  value : Der.Element
  deriving DecidableEq, Repr

/-- A distinguished name, as a list of sets. -/
abbrev Name := List (List NamePart)

/-! ### Reading -/

def NamePart.ofParts? : List Der.Element → Option NamePart
  | [identifier, value] =>
    if identifier.tag = Der.identifierTag ∧ Der.isIdentifier identifier.content then
      some ⟨identifier.content, value⟩
    else none
  | _ => none

/-- The numbers by which the members of a set are ordered: lengths stand before what they measure. -/
def NamePart.rank (part : NamePart) : List Nat :=
  let identifier := (⟨Der.identifierTag, part.identifier⟩ : Der.Element).encoding
  (identifier.length + part.value.encoding.length) :: part.identifier.length
    :: part.identifier.map UInt8.toNat ++ part.value.tag.toNat :: part.value.content.length
    :: part.value.content.map UInt8.toNat

def isBelow : List Nat → List Nat → Bool
  | _, [] => false
  | [], _ :: _ => true
  | first :: left, second :: right => first < second || (first == second && isBelow left right)

def areAscending : List NamePart → Bool
  | [] => true
  | [_] => true
  | first :: second :: rest => isBelow first.rank second.rank && areAscending (second :: rest)

/-- Reads a set. Its members may stand in any order and are put into that of their ranks; no member
may occur twice. -/
def nameSet? (element : Der.Element) : Option (List NamePart) := do
  let members ← element.parts? Der.setTag
  let parts ← members.mapM (fun member => (member.parts? Der.sequenceTag).bind NamePart.ofParts?)
  let arranged := parts.mergeSort (fun left right => !isBelow right.rank left.rank)
  if areAscending arranged then pure arranged else none

def Name.ofElement? (element : Der.Element) : Option Name := do
  let sets ← element.parts? Der.sequenceTag
  sets.mapM nameSet?

/-! ### Writing -/

def isPrintable (octet : UInt8) : Bool :=
  (0x41 ≤ octet && octet ≤ 0x5A) || (0x61 ≤ octet && octet ≤ 0x7A) || (0x30 ≤ octet && octet ≤ 0x39)
    || octet == 0x20 || (0x27 ≤ octet && octet ≤ 0x29) || (0x2B ≤ octet && octet ≤ 0x2F)
    || octet == 0x3A || octet == 0x3D || octet == 0x3F

def plainText? (value : Der.Element) : Option String :=
  let sound :=
    if value.tag = Der.printableStringTag then value.content.all isPrintable
    else if value.tag = Der.asciiStringTag ∨ value.tag = Der.teletexStringTag then
      value.content.all (fun octet => octet < 0x80)
    else value.tag = Der.utf8StringTag
  if sound then Octets.text? value.content else none

structure Place where
  first : Bool
  last : Bool

def escapedCharacter (place : Place) (character : Char) : List Char :=
  if character = '#' ∧ place.first then ['\\', '#']
  else if character = ' ' ∧ (place.first ∨ place.last) then ['\\', ' ']
  else if character ∈ ['"', '+', ',', ';', '<', '>', '\\'] then ['\\', character]
  else if character.toNat < 0x20 ∨ character.toNat = 0x7F then
    ['\\', Nat.digitChar (character.toNat / 16), Nat.digitChar (character.toNat % 16)]
  else [character]

/-- The written characters of a value of which `first` says whether it begins here. -/
def escapedValue : (first : Bool) → List Char → List Char
  | _, [] => []
  | first, character :: rest =>
    escapedCharacter ⟨first, rest.isEmpty⟩ character ++ escapedValue false rest

def NamePart.text (part : NamePart) : String :=
  match descriptor? part.identifier, plainText? part.value with
  | some name, some value => name ++ "=" ++ String.ofList (escapedValue true value.toList)
  | _, _ => Der.dotted part.identifier ++ "=#" ++ Octets.hex part.value.encoding

def Name.text (name : Name) : String :=
  ",".intercalate (name.reverse.map (fun parts => "+".intercalate (parts.map NamePart.text)))

end SamlGate.Certificate
