/-!
White space, in the two senses a message needs.

ASCII blanks (tab, line feed, form feed, carriage return, space) are dropped from base64 text wherever
it was wrapped. Unicode blanks bound the words of a list and are trimmed off values written by people.
The four characters that separate XML markup are a third set, kept in `SamlGate.Xml.Characters`.
-/

namespace SamlGate.Text

def isAsciiBlank (character : Char) : Bool :=
  character = '\t' || character = '\n' || character = '\x0c' || character = '\r' || character = ' '

/-- The characters with the Unicode property White_Space. -/
def isBlank (character : Char) : Bool :=
  let code := character.toNat
  (9 ≤ code && code ≤ 13) || code == 0x20 || code == 0x85 || code == 0xA0 || code == 0x1680
    || (0x2000 ≤ code && code ≤ 0x200A) || code == 0x2028 || code == 0x2029 || code == 0x202F
    || code == 0x205F || code == 0x3000

def compact (text : String) : String :=
  String.ofList (text.toList.filter (fun character => !isAsciiBlank character))

def trimmed (characters : List Char) : List Char :=
  ((characters.dropWhile isBlank).reverse.dropWhile isBlank).reverse

def trim (text : String) : String :=
  String.ofList (trimmed text.toList)

/-- The runs of characters between blanks, none of them empty. The first argument collects the run
that is being read, most recent character first. -/
def wordsFrom (run : List Char) : List Char → List (List Char)
  | [] => if run.isEmpty then [] else [run.reverse]
  | character :: rest =>
    if isBlank character then
      if run.isEmpty then wordsFrom [] rest else run.reverse :: wordsFrom [] rest
    else wordsFrom (character :: run) rest

def words (text : String) : List String :=
  (wordsFrom [] text.toList).map String.ofList

end SamlGate.Text
