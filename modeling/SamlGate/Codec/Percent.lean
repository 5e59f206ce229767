import SamlGate.Error
import SamlGate.Text.Utf8

/-!
Form encoding: the names and values of a query or a form body.

A component is written octet by octet: letters, digits and `-_.~` stand for themselves, a space is `+`,
and every other octet is a percent sign with two upper-case hexadecimal digits. Reading takes more
spellings and is still strict: every percent sign must begin an escape, with digits of either case, any
other character stands for its own UTF-8 octets, and the octets together must be UTF-8.
-/

namespace SamlGate.Percent

def isUnreserved (octet : UInt8) : Bool :=
  (0x41 ≤ octet && octet ≤ 0x5A) || (0x61 ≤ octet && octet ≤ 0x7A) || (0x30 ≤ octet && octet ≤ 0x39)
    || octet == 0x2D || octet == 0x5F || octet == 0x2E || octet == 0x7E

def hexDigit (value : Nat) : Char :=
  if value < 10 then Char.ofNat (48 + value) else Char.ofNat (55 + value)

def hexValue? (digit : Char) : Option Nat :=
  let code := digit.toNat
  if 48 ≤ code ∧ code ≤ 57 then some (code - 48)
  else if 65 ≤ code ∧ code ≤ 70 then some (code - 55)
  else if 97 ≤ code ∧ code ≤ 102 then some (code - 87)
  else none

theorem hexValue?_hexDigit {value : Nat} (small : value < 16) :
    hexValue? (hexDigit value) = some value := by
  have checked : ∀ number : Fin 16, hexValue? (hexDigit number) = some number.val := by decide
  exact checked ⟨value, small⟩

def escaped? (high low : Char) : Option UInt8 := do
  let upper ← hexValue? high
  let lower ← hexValue? low
  pure (UInt8.ofNat (upper * 16 + lower))

theorem escaped?_hexDigit (octet : UInt8) :
    escaped? (hexDigit (octet.toNat / 16)) (hexDigit (octet.toNat % 16)) = some octet := by
  have below := octet.toNat_lt
  have upper : hexValue? (hexDigit (octet.toNat / 16)) = some (octet.toNat / 16) :=
    hexValue?_hexDigit (by omega)
  have lower : hexValue? (hexDigit (octet.toNat % 16)) = some (octet.toNat % 16) :=
    hexValue?_hexDigit (by omega)
  simp only [escaped?, upper, lower, Option.bind_eq_bind, Option.bind_some, Option.pure_def]
  rw [Nat.div_add_mod', UInt8.ofNat_toNat]

def encodedOctet (octet : UInt8) : List Char :=
  if isUnreserved octet then [Char.ofNat octet.toNat]
  else if octet = 0x20 then ['+']
  else ['%', hexDigit (octet.toNat / 16), hexDigit (octet.toNat % 16)]

def encode (value : String) : String :=
  String.ofList ((Octets.ofText value).flatMap encodedOctet)

/-- Reads the octets of a component, none if a percent sign begins no escape; `done` holds the octets
before it, the last one first. -/
def octetsOnto (done : Octets) : List Char → Option Octets
  | [] => some done.reverse
  | '%' :: high :: low :: rest =>
    match escaped? high low with
    | some octet => octetsOnto (octet :: done) rest
    | none => none
  | '%' :: _ => none
  | '+' :: rest => octetsOnto (0x20 :: done) rest
  | character :: rest =>
    octetsOnto ((Octets.ofText (String.singleton character)).reverse ++ done) rest

def octets? (component : String) : Option Octets :=
  octetsOnto [] component.toList

def decode (component : String) : Except Error String :=
  match octets? component with
  | none => .error (.malformed (.percentEncoding component))
  | some octets =>
    match Utf8.read octets with
    | .ok value => .ok value
    | .error fault => .error (.malformed (.parameterText fault))

/-! ### Writing is undone by reading -/

private theorem unreserved_plain {octet : UInt8} (kept : isUnreserved octet = true) :
    Octets.ofText (String.singleton (Char.ofNat octet.toNat)) = [octet] ∧
      Char.ofNat octet.toNat ≠ '%' ∧ Char.ofNat octet.toNat ≠ '+' := by
  have checked : ∀ number : Fin 256, isUnreserved (UInt8.ofNat number.val) = true →
      Octets.ofText (String.singleton (Char.ofNat number.val)) = [UInt8.ofNat number.val] ∧
        Char.ofNat number.val ≠ '%' ∧ Char.ofNat number.val ≠ '+' := by
    decide +kernel
  have result := checked ⟨octet.toNat, octet.toNat_lt⟩
  simp only [UInt8.ofNat_toNat] at result
  exact result kept

private theorem octetsOnto_encodedOctet (done : Octets) (octet : UInt8) (rest : List Char) :
    octetsOnto done (encodedOctet octet ++ rest) = octetsOnto (octet :: done) rest := by
  unfold encodedOctet
  split
  · rename_i kept
    obtain ⟨single, notEscape, notSpace⟩ := unreserved_plain kept
    rw [List.cons_append, List.nil_append, octetsOnto, single]
    · rfl
    all_goals simp_all
  · split
    · rename_i space
      subst space
      rw [List.cons_append, List.nil_append, octetsOnto]
    · simp only [List.cons_append, List.nil_append, octetsOnto, escaped?_hexDigit]

private theorem octetsOnto_encodedOctets (done octets : Octets) (rest : List Char) :
    octetsOnto done (octets.flatMap encodedOctet ++ rest) =
      octetsOnto (octets.reverse ++ done) rest := by
  induction octets generalizing done with
  | nil => simp
  | cons octet octets ih =>
    rw [List.flatMap_cons, List.append_assoc, octetsOnto_encodedOctet, ih]
    simp

theorem decode_encode (value : String) : decode (encode value) = .ok value := by
  have octets := octetsOnto_encodedOctets [] (Octets.ofText value) []
  simp only [List.append_nil] at octets
  simp [decode, octets?, encode, octets, octetsOnto]

end SamlGate.Percent
