import SamlGate.Codec.Base64
import SamlGate.Text.Mark

/-!
Certificates in their textual armour.

An armoured octet string stands between a line that begins it and a line that ends it, both with the
same label. The base64 lines between have 64 characters each, and only the last may be shorter, even
empty, or have padding. Nothing but one line end follows. Lines before the beginning are allowed and mean
nothing. A line ends with a line feed, a carriage return, or the two together.
-/

namespace SamlGate.Pem

structure Block where
  label : String
  octets : Octets

def beginMark : List Char := "-----BEGIN ".toList

def endMark : List Char := "-----END ".toList

def dashes : List Char := "-----".toList

def afterLineEnd? : List Char → Option (List Char)
  | '\r' :: '\n' :: rest => some rest
  | '\r' :: rest => some rest
  | '\n' :: rest => some rest
  | _ => none

/-- What precedes the line end at the back of a text, if there is one; both texts are given last
character first. -/
def beforeLineEnd? : List Char → Option (List Char)
  | '\n' :: '\r' :: rest => some rest
  | '\n' :: rest => some rest
  | '\r' :: rest => some rest
  | _ => none

def afterPreamble? : (lineStart : Bool) → List Char → Option (List Char)
  | _, [] => none
  | lineStart, character :: rest =>
    match if lineStart then Text.after? beginMark (character :: rest) else none with
    | some behind => some behind
    | none => if character = '\x00' then none else afterPreamble? (character = '\n') rest

def isLabelCharacter (character : Char) : Bool :=
  0x21 ≤ character.toNat && character.toNat ≤ 0x7E && character ≠ '-'

/-- Reads a label up to a dash. A blank, which is a space or a tab, may only follow another character of
the label. -/
def label? : (blankAllowed : Bool) → List Char → Option (List Char × List Char)
  | _, [] => some ([], [])
  | blankAllowed, character :: rest =>
    if character = '-' then some ([], character :: rest)
    else if isLabelCharacter character then
      (label? true rest).map (fun found => (character :: found.1, found.2))
    else if (character = ' ' ∨ character = '\t') ∧ blankAllowed then
      (label? false rest).map (fun found => (character :: found.1, found.2))
    else none

def beforeEnding? (label backwards : List Char) : Option (List Char) := do
  let line := (beforeLineEnd? backwards).getD backwards
  let body ← Text.after? (endMark ++ label ++ dashes).reverse line
  beforeLineEnd? body

/-- The lines of a body: 64 characters and a line end each, but the last may have fewer, with or without
a line end. There are no more lines than `count`. -/
def lines? : (count : Nat) → List Char → Option (List (List Char))
  | _, [] => some []
  | 0, _ :: _ => none
  | count + 1, body =>
    match body.drop 64 with
    | [] => some [((beforeLineEnd? body.reverse).getD body.reverse).reverse]
    | behind => do
      let lines ← lines? count (← afterLineEnd? behind)
      pure (body.take 64 :: lines)

def octets? (body : List Char) : Option Octets := do
  let lines ← lines? body.length body
  if lines.flatten.isEmpty || lines.dropLast.any (fun line => line.contains '=') then none
  else Base64.decodeOnto [] lines.flatten

def Block.read? (text : String) : Option Block := do
  let (label, behind) ← label? false (← afterPreamble? true text.toList)
  let inside ← afterLineEnd? (← Text.after? dashes behind)
  let body := (← beforeEnding? label inside.reverse).reverse
  let octets ← octets? body
  pure ⟨String.ofList label, octets⟩

end SamlGate.Pem
