/-!
The character classes of XML markup.

Blanks separate the parts of a tag; names are made of name characters and begin with a name start
character; every character of a document must be allowed. The classes are those of XML 1.0, and the
colon counts as a name character here: `SamlGate.Xml.Name` gives it its meaning.
-/

namespace SamlGate.Xml

def isBlank (character : Char) : Bool :=
  character = ' ' || character = '\t' || character = '\n' || character = '\r'

/-- Whether a document may hold the character, as written or by reference. -/
def isAllowed (character : Char) : Bool :=
  if character.toNat < 0x20 then character = '\t' || character = '\n' || character = '\r'
  else character.toNat ≠ 0xFFFE && character.toNat ≠ 0xFFFF

/-- The ranges of code points beyond ASCII with which a name may begin. -/
def nameStartRanges : List (Nat × Nat) :=
  [(0xC0, 0xD6), (0xD8, 0xF6), (0xF8, 0x2FF), (0x370, 0x37D), (0x37F, 0x1FFF), (0x200C, 0x200D),
   (0x2070, 0x218F), (0x2C00, 0x2FEF), (0x3001, 0xD7FF), (0xF900, 0xFDCF), (0xFDF0, 0xFFFD),
   (0x10000, 0xEFFFF)]

def isNameStart (character : Char) : Bool :=
  if character.toNat < 0x80 then character.isAlpha || character = ':' || character = '_'
  else nameStartRanges.any (fun range => range.1 ≤ character.toNat && character.toNat ≤ range.2)

def isNamePart (character : Char) : Bool :=
  isNameStart character || character.isDigit || character = '-' || character = '.'
    || character.toNat = 0xB7 || (0x300 ≤ character.toNat && character.toNat ≤ 0x36F)
    || (0x203F ≤ character.toNat && character.toNat ≤ 0x2040)

def beginsName : List Char → Bool
  | [] => false
  | first :: _ => isNameStart first

end SamlGate.Xml
