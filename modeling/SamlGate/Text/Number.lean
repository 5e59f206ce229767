/-!
Numbers as people write them in attributes and arguments: decimal digits, which a plus sign may precede.
-/

namespace SamlGate.Text

def isDigit (character : Char) : Bool :=
  '0' ≤ character && character ≤ '9'

/-- The number that digits spell, given the value of those before them. -/
def digitsValue (value : Nat) (digits : List Char) : Nat :=
  digits.foldl (fun value digit => value * 10 + (digit.toNat - 48)) value

def digits? (characters : List Char) : Option Nat :=
  if !characters.isEmpty && characters.all isDigit then some (digitsValue 0 characters) else none

def natural? (text : String) : Option Nat :=
  match text.toList with
  | '+' :: rest => digits? rest
  | characters => digits? characters

end SamlGate.Text
