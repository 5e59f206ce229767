import SamlGate.Text.Blank
import SamlGate.Text.Octets

/-!
Base64 with canonical padding.

Four characters carry three octets. Only the last group may be padded, with one or two signs, and the
bits that the padding leaves over must be zero, so that an octet string has one spelling and every
accepted text is the spelling of what it is read as. The empty text spells no octets.

Blanks are no part of the alphabet: a caller that admits wrapped text removes them first.
-/

namespace SamlGate.Base64

def digit (value : Nat) : Char :=
  if value < 26 then Char.ofNat (65 + value)
  else if value < 52 then Char.ofNat (71 + value)
  else if value < 62 then Char.ofNat (value - 4)
  else if value = 62 then '+'
  else '/'

def value? (character : Char) : Option Nat :=
  let code := character.toNat
  if 65 ≤ code ∧ code ≤ 90 then some (code - 65)
  else if 97 ≤ code ∧ code ≤ 122 then some (code - 71)
  else if 48 ≤ code ∧ code ≤ 57 then some (code + 4)
  else if code = 43 then some 62
  else if code = 47 then some 63
  else none

private theorem value?_digit {value : Nat} (small : value < 64) : value? (digit value) = some value := by
  have checked : ∀ bits : Fin 64, value? (digit bits) = some bits.val := by decide
  exact checked ⟨value, small⟩

private theorem value?_padding : value? '=' = none := rfl

def wholeGroup? (first second third fourth : Char) : Option Octets := do
  let a ← value? first
  let b ← value? second
  let c ← value? third
  let d ← value? fourth
  pure (Octets.ofNat (((a * 64 + b) * 64 + c) * 64 + d) 3)

def paddedGroup? (first second third : Char) : Option Octets := do
  let a ← value? first
  let b ← value? second
  if third = '=' then
    if b % 16 = 0 then pure (Octets.ofNat ((a * 64 + b) / 16) 1) else none
  else
    let c ← value? third
    if c % 4 = 0 then pure (Octets.ofNat (((a * 64 + b) * 64 + c) / 4) 2) else none

/-- Reads the groups of a text; `done` holds the octets before them, the last one first. -/
def decodeOnto (done : Octets) : List Char → Option Octets
  | [] => some done.reverse
  | first :: second :: third :: fourth :: rest =>
    if rest.isEmpty ∧ fourth = '=' then
      (paddedGroup? first second third).map (fun octets => done.reverse ++ octets)
    else
      match wholeGroup? first second third fourth with
      | some octets => decodeOnto (octets.reverse ++ done) rest
      | none => none
  | _ => none

def decode? (text : String) : Option Octets :=
  decodeOnto [] text.toList

def decodeWrapped? (text : String) : Option Octets :=
  decode? (Text.compact text)

/-- The characters of the last `width` digits of a number in base 64. -/
def digits (value : Nat) : (width : Nat) → List Char
  | 0 => []
  | width + 1 => digits (value / 64) width ++ [digit (value % 64)]

def encodedGroups : Octets → List Char
  | [] => []
  | [first] => digits (first.toNat * 16) 2 ++ ['=', '=']
  | [first, second] => digits ((first.toNat * 256 + second.toNat) * 4) 3 ++ ['=']
  | first :: second :: third :: rest =>
    digits ((first.toNat * 256 + second.toNat) * 256 + third.toNat) 4 ++ encodedGroups rest

def encode (octets : Octets) : String :=
  String.ofList (encodedGroups octets)

/-! ### Writing is undone by reading -/

private theorem digit_ne_padding {value : Nat} (small : value < 64) : digit value ≠ '=' := by
  intro same
  have read := value?_digit small
  rw [same, value?_padding] at read
  cases read

private theorem ofNat_one (first : UInt8) : Octets.ofNat first.toNat 1 = [first] := by
  have bound := first.toNat_lt
  simp only [Octets.ofNat, List.nil_append]
  rw [show first.toNat % 256 = first.toNat by omega]
  simp

private theorem ofNat_two (first second : UInt8) :
    Octets.ofNat (first.toNat * 256 + second.toNat) 2 = [first, second] := by
  have low := second.toNat_lt
  have high := first.toNat_lt
  simp only [Octets.ofNat, List.nil_append, List.cons_append]
  rw [show (first.toNat * 256 + second.toNat) % 256 = second.toNat by omega,
    show (first.toNat * 256 + second.toNat) / 256 % 256 = first.toNat by omega]
  simp

private theorem ofNat_three (first second third : UInt8) :
    Octets.ofNat ((first.toNat * 256 + second.toNat) * 256 + third.toNat) 3 =
      [first, second, third] := by
  have low := third.toNat_lt
  have middle := second.toNat_lt
  have high := first.toNat_lt
  simp only [Octets.ofNat, List.nil_append, List.cons_append]
  generalize total : (first.toNat * 256 + second.toNat) * 256 + third.toNat = value
  rw [show value % 256 = third.toNat by omega, show value / 256 % 256 = second.toNat by omega,
    show value / 256 / 256 % 256 = first.toNat by omega]
  simp

private theorem decodeOnto_encodedGroups (done octets : Octets) :
    decodeOnto done (encodedGroups octets) = some (done.reverse ++ octets) := by
  fun_induction encodedGroups octets generalizing done with
  | case1 => simp [decodeOnto]
  | case2 first =>
    have bound := first.toNat_lt
    simp only [digits, List.nil_append, List.cons_append, decodeOnto, List.isEmpty_nil, and_self,
      ↓reduceIte, paddedGroup?]
    rw [value?_digit (by omega), value?_digit (by omega)]
    simp only [Option.bind_eq_bind, Option.bind_some]
    rw [if_pos (by omega),
      show (first.toNat * 16 / 64 % 64 * 64 + first.toNat * 16 % 64) / 16 = first.toNat by omega]
    simp [ofNat_one]
  | case3 first second =>
    have low := second.toNat_lt
    have high := first.toNat_lt
    simp only [digits, List.nil_append, List.cons_append, decodeOnto, List.isEmpty_nil, and_self,
      ↓reduceIte, paddedGroup?]
    rw [value?_digit (by omega), value?_digit (by omega), value?_digit (by omega)]
    simp only [Option.bind_eq_bind, Option.bind_some]
    rw [if_neg (digit_ne_padding (Nat.mod_lt _ (by decide)))]
    generalize total : first.toNat * 256 + second.toNat = value
    rw [if_pos (by omega),
      show ((value * 4 / 64 / 64 % 64 * 64 + value * 4 / 64 % 64) * 64 + value * 4 % 64) / 4 = value
        by omega]
    simp [← total, ofNat_two]
  | case4 first second third rest ih =>
    have low := third.toNat_lt
    have middle := second.toNat_lt
    have high := first.toNat_lt
    simp only [digits, List.nil_append, List.cons_append, decodeOnto]
    rw [if_neg (fun padded => digit_ne_padding (Nat.mod_lt _ (by decide)) padded.2)]
    simp only [wholeGroup?]
    rw [value?_digit (by omega), value?_digit (by omega), value?_digit (by omega),
      value?_digit (by omega)]
    simp only [Option.bind_eq_bind, Option.bind_some, Option.pure_def]
    generalize total : (first.toNat * 256 + second.toNat) * 256 + third.toNat = value
    rw [show ((value / 64 / 64 / 64 % 64 * 64 + value / 64 / 64 % 64) * 64 + value / 64 % 64) * 64
        + value % 64 = value by omega, ← total, ofNat_three, ih]
    simp

private theorem decode?_encode (octets : Octets) : decode? (encode octets) = some octets := by
  simp [decode?, encode, decodeOnto_encodedGroups]

theorem encode_eq_empty_iff {octets : Octets} : encode octets = "" ↔ octets = [] := by
  constructor
  · intro empty
    have decoded := decode?_encode octets
    rw [empty] at decoded
    exact (Option.some.inj decoded).symm
  · intro none
    rw [none]
    rfl

private theorem isAsciiBlank_digit {value : Nat} (small : value < 64) :
    Text.isAsciiBlank (digit value) = false := by
  have checked : ∀ bits : Fin 64, Text.isAsciiBlank (digit bits) = false := by decide
  exact checked ⟨value, small⟩

private theorem isAsciiBlank_of_mem_digits {value width : Nat} {character : Char}
    (member : character ∈ digits value width) : Text.isAsciiBlank character = false := by
  induction width generalizing value with
  | zero =>
      cases member
  | succ width ih =>
      rw [digits, List.mem_append, List.mem_singleton] at member
      rcases member with before | last
      · exact ih before
      · rw [last]
        exact isAsciiBlank_digit (Nat.mod_lt _ (by decide))

private theorem isAsciiBlank_of_mem_encodedGroups {octets : Octets} {character : Char}
    (member : character ∈ encodedGroups octets) : Text.isAsciiBlank character = false := by
  have padding : Text.isAsciiBlank '=' = false := by decide
  induction octets using encodedGroups.induct with
  | case1 =>
      cases member
  | case2 first =>
      rcases List.mem_append.mp member with written | padded
      · exact isAsciiBlank_of_mem_digits written
      · simp_all
  | case3 first second =>
      rcases List.mem_append.mp member with written | padded
      · exact isAsciiBlank_of_mem_digits written
      · simp_all
  | case4 first second third rest ih =>
      rcases List.mem_append.mp member with written | later
      · exact isAsciiBlank_of_mem_digits written
      · exact ih later

theorem decodeWrapped?_encode (octets : Octets) : decodeWrapped? (encode octets) = some octets := by
  have unwrapped : Text.compact (encode octets) = encode octets := by
    unfold Text.compact encode
    rw [String.toList_ofList, List.filter_eq_self.mpr]
    intro character member
    rw [isAsciiBlank_of_mem_encodedGroups member]
    rfl
  rw [decodeWrapped?, unwrapped, decode?_encode]

end SamlGate.Base64
