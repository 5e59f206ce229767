import SamlGate.Xml.Characters

/-!
Names as they are written: an optional prefix, a colon, and a local part.

At most one colon is allowed. A prefix may be empty even when the colon is there, and such a name counts
as unprefixed; the local part is never empty, and both parts begin with a name start character.
-/

namespace SamlGate.Xml

structure QName where
  nsPrefix : String
  localName : String
  deriving DecidableEq, Repr

def QName.written (name : QName) : String :=
  if name.nsPrefix = "" then name.localName else name.nsPrefix ++ ":" ++ name.localName

def QName.ofRun? (run : List Char) : Option QName :=
  let front := run.takeWhile (fun character => character ≠ ':')
  match run.dropWhile (fun character => character ≠ ':') with
  | [] => if beginsName front then some ⟨"", String.ofList front⟩ else none
  | _ :: back =>
    if (front.isEmpty || beginsName front) && beginsName back && !back.contains ':' then
      some ⟨String.ofList front, String.ofList back⟩
    else none

def QName.read? (text : List Char) : Option (QName × List Char) :=
  (QName.ofRun? (text.takeWhile isNamePart)).map (fun name => (name, text.dropWhile isNamePart))

end SamlGate.Xml
