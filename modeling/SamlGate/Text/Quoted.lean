import SamlGate.Text.Shown

/-!
Values quoted inside messages.

A quoted value stands between quotation marks on one line: marks and backslashes are escaped, the common
controls have short escapes, and every other character that would not show is written by its code point
in lower-case hexadecimal.
-/

namespace SamlGate.Text

def hexNumber (value : Nat) : List Char :=
  Nat.toDigits 16 value

def quotedCharacter (character : Char) : List Char :=
  if character = '\x00' then ['\\', '0']
  else if character = '\t' then ['\\', 't']
  else if character = '\n' then ['\\', 'n']
  else if character = '\r' then ['\\', 'r']
  else if character = '"' ∨ character = '\\' then ['\\', character]
  else if isShown character then [character]
  else ['\\', 'u', '\x7b'] ++ hexNumber character.toNat ++ ['\x7d']

def quoted (text : String) : String :=
  String.ofList ('"' :: text.toList.flatMap quotedCharacter ++ ['"'])

end SamlGate.Text
