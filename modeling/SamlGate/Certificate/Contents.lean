import SamlGate.Certificate.Name
import SamlGate.Rsa.PublicKey

/-!
X.509 certificates.

A certificate is read in full: serial number, names, validity, public key and extensions must all be in
good order, although only the subject and the key are kept. Its own signature is not checked, since a
certificate is trusted by being registered, not by being issued.
-/

namespace SamlGate.Certificate

structure AlgorithmIdentifier where
  identifier : Octets
  parameter : Option Der.Element
  deriving DecidableEq, Repr

structure Contents where
  subject : Name
  keyAlgorithm : AlgorithmIdentifier
  /-- The bit string of the public key, with the octet that counts its unused bits. -/
  keyBits : Octets
  deriving DecidableEq, Repr

/-! ### Times -/

def decimal? (digits : Octets) : Option Nat :=
  digits.foldlM (fun value digit =>
    if 0x30 ≤ digit ∧ digit ≤ 0x39 then some (value * 10 + (digit.toNat - 0x30)) else none) 0

def isLeapYear (year : Nat) : Bool :=
  year % 4 = 0 && (year % 100 ≠ 0 || year % 400 = 0)

def daysInMonth (year month : Nat) : Nat :=
  if month = 2 then (if isLeapYear year then 29 else 28)
  else if month ∈ [4, 6, 9, 11] then 30
  else if 1 ≤ month ∧ month ≤ 12 then 31
  else 0

def isRestOfTime (year : Nat) (octets : Octets) : Bool :=
  let field := fun index => decimal? ((octets.drop (2 * index)).take 2)
  match field 0, field 1, field 2, field 3, field 4 with
  | some month, some day, some hour, some minute, some second =>
    octets.length = 11 && octets.drop 10 = [0x5A] && year ≥ 1970
      && 1 ≤ day && day ≤ daysInMonth year month && hour ≤ 23 && minute ≤ 59 && second ≤ 59
  | _, _, _, _, _ => false

/-- A time has a year of two digits, which lies between 1950 and 2049, or of four. -/
def isTime (element : Der.Element) : Bool :=
  let width := if element.tag = Der.shortTimeTag then 2 else 4
  match decimal? (element.content.take width) with
  | none => false
  | some number =>
    let year := if width = 4 then number else if number < 50 then 2000 + number else 1900 + number
    (element.tag = Der.shortTimeTag || element.tag = Der.longTimeTag)
      && isRestOfTime year (element.content.drop width)

def isValidity (element : Der.Element) : Bool :=
  match element.parts? Der.sequenceTag with
  | some [notBefore, notAfter] => isTime notBefore && isTime notAfter
  | _ => false

/-! ### Parts of a certificate -/

def AlgorithmIdentifier.ofElement? (element : Der.Element) : Option AlgorithmIdentifier := do
  match ← element.parts? Der.sequenceTag with
  | identifier :: parameters =>
    if identifier.tag = Der.identifierTag ∧ Der.isIdentifier identifier.content
        ∧ parameters.length ≤ 1 then
      pure ⟨identifier.content, parameters.head?⟩
    else none
  | [] => none

def isSerialNumber (element : Der.Element) : Bool :=
  element.tag = Der.integerTag && Der.isInteger element.content && element.content.length ≤ 21

def isVersion (element : Der.Element) : Bool :=
  match element.parts? 0xA0 with
  | some [version] => version.natural?.any (fun number => number ≤ 2)
  | _ => false

def isExtension (element : Der.Element) : Bool :=
  match element.parts? Der.sequenceTag with
  | some (identifier :: rest) =>
    let critical := rest.take (rest.length - 1)
    identifier.tag = Der.identifierTag && Der.isIdentifier identifier.content
      && critical.length ≤ 1
      && critical.all (fun flag => flag.tag = Der.booleanTag && Der.isTruthValue flag.content)
      && rest.getLast?.any (fun value => value.tag = Der.octetStringTag)
  | _ => false

def isExtensions (element : Der.Element) : Bool :=
  match Der.elements? element.content with
  | some [wrapped] =>
    match wrapped.parts? Der.sequenceTag with
    | some extensions => extensions.all isExtension
    | none => false
  | _ => false

/-- Removes the part with the given number from the front of the parts that carry numbers, together
with any of lower number before it. -/
def takeNumbered (number : Nat) : List Der.Element → Option Der.Element × List Der.Element
  | [] => (none, [])
  | part :: rest =>
    if !Der.isContextTag part.tag then (none, part :: rest)
    else if part.tag.toNat % 32 < number then takeNumbered number rest
    else if part.tag.toNat % 32 = number then (some part, rest)
    else (none, part :: rest)

def isTrailer (parts : List Der.Element) : Bool :=
  let (issuer, parts) := takeNumbered 1 parts
  let (subject, parts) := takeNumbered 2 parts
  let (extensions, parts) := takeNumbered 3 parts
  issuer.all (fun part => part.tag = 0x81 && Der.isBitString part.content)
    && subject.all (fun part => part.tag = 0x82 && Der.isBitString part.content)
    && extensions.all (fun part => part.tag = 0xA3 && isExtensions part)
    && parts.isEmpty

def Contents.ofVersionedParts? : List Der.Element → Option Contents
  | serial :: algorithm :: issuer :: validity :: subject :: key :: trailer => do
    let _ ← AlgorithmIdentifier.ofElement? algorithm
    let _ ← Name.ofElement? issuer
    let holder ← Name.ofElement? subject
    match ← key.parts? Der.sequenceTag with
    | [keyAlgorithm, keyBits] =>
      let stated ← AlgorithmIdentifier.ofElement? keyAlgorithm
      if isSerialNumber serial && isValidity validity && keyBits.tag = Der.bitStringTag
          && Der.isBitString keyBits.content && isTrailer trailer then
        pure ⟨holder, stated, keyBits.content⟩
      else none
    | _ => none
  | _ => none

def Contents.ofSignedPart? (element : Der.Element) : Option Contents := do
  let parts ← element.parts? Der.sequenceTag
  match takeNumbered 0 parts with
  | (some version, rest) => if isVersion version then Contents.ofVersionedParts? rest else none
  | (none, rest) => Contents.ofVersionedParts? rest

def Contents.read? (octets : Octets) : Option Contents := do
  match ← Der.elements? octets with
  | [whole] =>
    match ← whole.parts? Der.sequenceTag with
    | [signedPart, algorithm, signature] =>
      let contents ← Contents.ofSignedPart? signedPart
      let _ ← AlgorithmIdentifier.ofElement? algorithm
      if signature.tag = Der.bitStringTag && Der.isBitString signature.content then pure contents
      else none
    | _ => none
  | _ => none

/-! ### The key of a certificate -/

def rsaKeys : AlgorithmIdentifier where
  identifier := [0x2A, 0x86, 0x48, 0x86, 0xF7, 0x0D, 0x01, 0x01, 0x01]
  parameter := some ⟨Der.nullTag, []⟩

/-- The keys that are used: of at most 4096 bits, with odd numbers of sound size. -/
def isSoundKey (key : Rsa.PublicKey) : Bool :=
  key.bits ≤ 4096 && key.modulus % 2 = 1 && key.exponent < key.modulus && key.exponent % 2 = 1
    && 3 ≤ key.exponent && key.exponent < 2 * UInt32.size

def Contents.key? (contents : Contents) : Option Rsa.PublicKey := do
  if contents.keyAlgorithm = rsaKeys ∧ contents.keyBits.head? = some 0 then
    match ← Der.elements? (contents.keyBits.drop 1) with
    | [whole] =>
      match ← whole.parts? Der.sequenceTag with
      | [modulus, exponent] =>
        let key : Rsa.PublicKey := ⟨← modulus.natural?, ← exponent.natural?⟩
        if isSoundKey key then pure key else none
      | _ => none
    | _ => none
  else none

end SamlGate.Certificate
