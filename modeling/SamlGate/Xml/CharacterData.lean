import SamlGate.Xml.Characters

/-!
Character data: references and line ends.

Written text stands for other text. A reference stands for one character; a line end that is written as
it is stands for a line feed, whatever its spelling; in an attribute value it stands for a space. What a
reference spells is never a line end in this sense, so it survives, and it also shields the one character
written after it and a carriage return written before it.

`text?` and `attributeValue?` read the two kinds of character data; both fail only at a reference that
names no allowed character.
-/

namespace SamlGate.Xml

/-- A character of the data, and whether it is written as it is or by reference. -/
inductive Glyph where
  | literal (character : Char)
  | reference (character : Char)
  deriving DecidableEq, Repr

def digitValue? (base : Nat) (digit : Char) : Option Nat :=
  let value :=
    if digit.isDigit then digit.toNat - '0'.toNat
    else if 'a' ≤ digit ∧ digit ≤ 'f' then digit.toNat - 'a'.toNat + 10
    else if 'A' ≤ digit ∧ digit ≤ 'F' then digit.toNat - 'A'.toNat + 10
    else base
  if value < base then some value else none

def number? (base : Nat) (digits : List Char) : Option Nat :=
  if digits.isEmpty then none
  else digits.foldlM (fun value digit => (digitValue? base digit).map (value * base + ·)) 0

/-- The character of a numeric reference. A number of 32 bits that is no character stands for the
replacement character. -/
def numbered? (base : Nat) (digits : List Char) : Option Char :=
  match number? base digits with
  | none => none
  | some code =>
    if code ≥ UInt32.size then none
    else
      let character := if code.isValidChar then Char.ofNat code else '\uFFFD'
      if isAllowed character then some character else none

/-- The character that a reference names; the ampersand and the semicolon are taken off. -/
def referenced? (name : List Char) : Option Char :=
  match name with
  | '#' :: 'x' :: digits => numbered? 16 digits
  | '#' :: digits => numbered? 10 digits
  | _ =>
    if name = ['l', 't'] then some '<'
    else if name = ['g', 't'] then some '>'
    else if name = ['a', 'm', 'p'] then some '&'
    else if name = ['q', 'u', 'o', 't'] then some '"'
    else if name = ['a', 'p', 'o', 's'] then some '\''
    else none

/-- Reads written text glyph by glyph. `open?` holds the characters of the reference that is being
read, `glyphs` what is read already, both most recent first. -/
def glyphsFrom (open? : Option (List Char)) (glyphs : List Glyph) :
    List Char → Option (List Glyph)
  | [] => if open?.isNone then some glyphs.reverse else none
  | character :: rest =>
    match open? with
    | none =>
      if character = '&' then glyphsFrom (some []) glyphs rest
      else glyphsFrom none (.literal character :: glyphs) rest
    | some name =>
      if character = ';' then
        match referenced? name.reverse with
        | some named => glyphsFrom none (.reference named :: glyphs) rest
        | none => none
      else glyphsFrom (some (character :: name)) glyphs rest

def glyphs? (written : List Char) : Option (List Glyph) :=
  glyphsFrom none [] written

/-- The text of the glyphs with its line ends made line feeds. `shielded` says that the next glyph
directly follows a reference; `done` holds the text so far, most recent first. -/
def lineFeedsFrom (shielded : Bool) (done : List Char) : List Glyph → List Char
  | [] => done.reverse
  | .reference character :: rest => lineFeedsFrom true (character :: done) rest
  | .literal character :: rest =>
    if character = '\r' then
      match rest with
      | [] => ((if shielded then '\r' else '\n') :: done).reverse
      | .reference _ :: _ => lineFeedsFrom false ('\r' :: done) rest
      | .literal next :: _ =>
        if next = '\n' then lineFeedsFrom false done rest
        else lineFeedsFrom false ('\n' :: done) rest
    else lineFeedsFrom false (character :: done) rest

def spacesFrom (done : List Char) : List Glyph → List Char
  | [] => done.reverse
  | .reference character :: rest => spacesFrom (character :: done) rest
  | .literal character :: rest =>
    if character = '\r' ∧ rest.head? = some (.literal '\n') then spacesFrom done rest
    else if character = '\t' ∨ character = '\n' ∨ character = '\r' then spacesFrom (' ' :: done) rest
    else spacesFrom (character :: done) rest

def text? (written : List Char) : Option (List Char) :=
  (glyphs? written).map (lineFeedsFrom false [])

def attributeValue? (written : List Char) : Option (List Char) :=
  (glyphs? written).map (spacesFrom [])

/-- The text of a section in which nothing is a reference. -/
def verbatimText (written : List Char) : List Char :=
  lineFeedsFrom false [] (written.map .literal)

end SamlGate.Xml
