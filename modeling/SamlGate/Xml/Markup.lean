import SamlGate.Xml.CharacterData
import SamlGate.Xml.Name
import SamlGate.Text.Mark

/-!
The markup of a document, piece by piece.

`Markup.readAll?` cuts a text into tags, runs of character data, verbatim sections, comments and
processing instructions. It checks what each piece must satisfy by itself: names, quotes, allowed
characters, references in attribute values. Whether tags match, whether prefixes are declared and where
text may stand is not looked at here. There is no document type declaration: one is not markup.
-/

namespace SamlGate.Xml

/-- An attribute as written, its value already read. -/
structure WrittenAttribute where
  name : QName
  value : String
  deriving DecidableEq, Repr

inductive Markup where
  /-- A start tag; `closed` if it ends its element at once. -/
  | opening (name : QName) (attributes : List WrittenAttribute) (closed : Bool)
  | closing (name : QName)
  | run (written : List Char)
  | verbatim (written : List Char)
  | comment (text : List Char)
  | instruction (target value : List Char)
  deriving DecidableEq, Repr

namespace Markup

/-- Reads a name, an equals sign and a quoted value off the front of the text. -/
def attribute? (text : List Char) : Option ((QName × List Char) × List Char) := do
  let (name, text) ← QName.read? text
  let text ← Text.after? ['='] (text.dropWhile isBlank)
  match text.dropWhile isBlank with
  | [] => none
  | quote :: text =>
    if quote = '"' ∨ quote = '\'' then
      let inside := fun character => character ≠ quote && character ≠ '<'
      let value := text.takeWhile inside
      match text.dropWhile inside with
      | [] => none
      | close :: text =>
        if close = quote ∧ value.all isAllowed then some ((name, value), text) else none
    else none

/-- Reads the rest of a start tag after its name: attributes, each after a blank, up to the end of the
tag. `attributes` holds those read already, most recent first; `fuel` bounds how many may follow. -/
def attributesFrom : (fuel : Nat) → (attributes : List WrittenAttribute) → (text : List Char) →
    Option (List WrittenAttribute × Bool × List Char)
  | 0, _, _ => none
  | fuel + 1, attributes, text =>
    match text.dropWhile isBlank with
    | '>' :: rest => some (attributes.reverse, false, rest)
    | '/' :: rest => (Text.after? ['>'] rest).map (fun rest => (attributes.reverse, true, rest))
    | start =>
      if (text.head?.map isBlank).getD false then
        match attribute? start with
        | none => none
        | some ((name, written), rest) =>
          match attributeValue? written with
          | none => none
          | some value =>
            attributesFrom fuel (⟨name, String.ofList value⟩ :: attributes) rest
      else none

def opening? (text : List Char) : Option (Markup × List Char) := do
  let (name, text) ← QName.read? text
  let (attributes, closed, text) ← attributesFrom (text.length + 1) [] text
  pure (.opening name attributes closed, text)

def closing? (text : List Char) : Option (Markup × List Char) := do
  let (name, text) ← QName.read? text
  let text ← Text.after? ['>'] (text.dropWhile isBlank)
  pure (.closing name, text)

def comment? (text : List Char) : Option (Markup × List Char) := do
  let (content, text) ← Text.upTo? ['-', '-', '>'] text
  if content.all isAllowed && !Text.occurs ['-', '-'] content && content.getLast? ≠ some '-' then
    pure (.comment content, text)
  else none

def verbatim? (text : List Char) : Option (Markup × List Char) := do
  let (content, text) ← Text.upTo? [']', ']', '>'] text
  if content.all isAllowed then pure (.verbatim content, text) else none

/-- Reads a processing instruction after its opening mark. What looks like an XML declaration is none. -/
def instruction? (text : List Char) : Option (Markup × List Char) :=
  if (Text.after? ['x', 'm', 'l', ' '] text).isSome then none
  else if beginsName text then do
    let (value, rest) ← Text.upTo? ['?', '>'] ((text.dropWhile isNamePart).dropWhile isBlank)
    if value.all isAllowed then pure (.instruction (text.takeWhile isNamePart) value, rest) else none
  else none

def run? (text : List Char) : Option (Markup × List Char) :=
  let written := text.takeWhile (fun character => character ≠ '<')
  if written.all isAllowed && !Text.occurs [']', ']', '>'] written then
    some (.run written, text.dropWhile (fun character => character ≠ '<'))
  else none

/-- Reads one piece of markup off the front of a text that is not empty. -/
def read? (text : List Char) : Option (Markup × List Char) :=
  match text with
  | '<' :: inner =>
    match Text.after? ['!', '-', '-'] inner with
    | some rest => comment? rest
    | none =>
      match Text.after? ['!', '[', 'C', 'D', 'A', 'T', 'A', '['] inner with
      | some rest => verbatim? rest
      | none =>
        match Text.after? ['?'] inner with
        | some rest => instruction? rest
        | none =>
          match Text.after? ['/'] inner with
          | some rest => closing? rest
          | none => opening? inner
  | _ => run? text

/-- Reads pieces until the text is used up. `pieces` holds those read already, most recent first, and
`fuel` bounds how many may follow. -/
def piecesFrom : (fuel : Nat) → (pieces : List Markup) → (text : List Char) → Option (List Markup)
  | _, pieces, [] => some pieces.reverse
  | 0, _, _ :: _ => none
  | fuel + 1, pieces, text@(_ :: _) =>
    match read? text with
    | none => none
    | some (piece, rest) => piecesFrom fuel (piece :: pieces) rest

/-- The markup of a text. Each piece takes at least one character, so there are no more pieces than
characters. -/
def readAll? (text : List Char) : Option (List Markup) :=
  piecesFrom text.length [] text

def declared? (word text : List Char) : Option (List Char) := do
  let _ ← Text.after? word text
  let (_, rest) ← attribute? text
  match rest with
  | [] => some []
  | next :: _ =>
    if isBlank next then some (rest.dropWhile isBlank)
    else if (Text.after? ['?', '>'] rest).isSome then some rest
    else none

def declaredOrNot (word text : List Char) : Option (List Char) :=
  if (Text.after? word text).isSome then declared? word text else some text

/-- What follows the byte order mark and the XML declaration, each of which may be missing. The
declaration gives a version, then may give an encoding and whether the document stands alone; their
values decide nothing. -/
def afterProlog? (text : List Char) : Option (List Char) := do
  let text := (Text.after? ['\uFEFF'] text).getD text
  match Text.after? ['<', '?', 'x', 'm', 'l', ' '] text with
  | none => some text
  | some rest =>
    let rest ← declared? "version".toList (rest.dropWhile isBlank)
    let rest ← declaredOrNot "encoding".toList rest
    let rest ← declaredOrNot "standalone".toList rest
    Text.after? ['?', '>'] (rest.dropWhile isBlank)

end Markup

end SamlGate.Xml
