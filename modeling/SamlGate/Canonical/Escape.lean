import SamlGate.Text.Octets

/-!
Escaping in canonical text.

A character that would end its place, or that reading would change, is replaced by a reference; every other
character stays. Text, attribute values and the data of processing instructions differ in which these are.

All replaced characters are spelled by a single octet. So a text is escaped octet by octet: runs of octets
that stay are copied between the references.
-/

namespace SamlGate.Canonical

inductive Place where
  | text
  | attributeValue
  | instruction
  deriving DecidableEq, Repr

/-- The reference that a character is replaced by in its place, if it is. -/
def Place.reference? (place : Place) (character : Char) : Option String :=
  match place with
  | .text =>
    if character = '&' then some "&amp;"
    else if character = '<' then some "&lt;"
    else if character = '>' then some "&gt;"
    else if character = '\r' then some "&#xD;"
    else none
  | .attributeValue =>
    if character = '&' then some "&amp;"
    else if character = '<' then some "&lt;"
    else if character = '"' then some "&quot;"
    else if character = '\t' then some "&#x9;"
    else if character = '\n' then some "&#xA;"
    else if character = '\r' then some "&#xD;"
    else none
  | .instruction => if character = '\r' then some "&#xD;" else none

def Place.spelling (place : Place) (character : Char) : List Char :=
  match place.reference? character with
  | some reference => reference.toList
  | none => [character]

def escaped (place : Place) (text : String) : List Char :=
  text.toList.flatMap place.spelling

theorem escaped_append (place : Place) (left right : String) :
    escaped place (left ++ right) = escaped place left ++ escaped place right := by
  simp [escaped]

/-! ### Octets -/

def Place.octetReference? (place : Place) (octet : UInt8) : Option Octets :=
  (place.reference? (Char.ofNat octet.toNat)).map Octets.ofText

/-- Goes over the octets that are left, the first of which is at `index`. The octets from `start` up to it
stay, and are copied when the next reference is written. -/
def Place.writeFrom (place : Place) (octets : Octets) (start index : Nat) (out : Octets) : Octets → Octets
  | [] => out ++ octets.drop start
  | octet :: rest =>
    match place.octetReference? octet with
    | some reference =>
      place.writeFrom octets (index + 1) (index + 1) (out ++ octets.extract start index ++ reference) rest
    | none => place.writeFrom octets start (index + 1) out rest

def Place.write (place : Place) (out : Octets) (text : String) : Octets :=
  place.writeFrom (Octets.ofText text) 0 0 out (Octets.ofText text)

/-- The text that is written for a text, or none of it if the octets should not spell one. -/
def Place.escape (place : Place) (text : String) : String :=
  (Octets.text? (place.write [] text)).getD ""

end SamlGate.Canonical
