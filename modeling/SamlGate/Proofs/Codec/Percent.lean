import SamlGate.Proofs.Outcome
import SamlGate.Login.Submission

/-!
Form encoding is undone by reading.

A written name or value holds neither of the signs that divide parameters, so written parameters are found
again where they were put, and each is read as what was written.
-/

namespace SamlGate

open Outcome

/-! ### Values -/

theorem Percent.encode_inj {value other : String} : encode value = encode other ↔ value = other := by
  constructor
  · intro same
    have decoded := congrArg decode same
    rw [decode_encode, decode_encode] at decoded
    exact Except.ok.inj decoded
  · intro same
    rw [same]

def Percent.isSeparator (character : Char) : Bool :=
  character = '&' || character = '='

private theorem Percent.any_isSeparator_encodedOctet (octet : UInt8) :
    (encodedOctet octet).any isSeparator = false := by
  have checked : ∀ number : Fin 256, (encodedOctet (UInt8.ofNat number.val)).any isSeparator = false := by
    decide +kernel
  have result := checked ⟨octet.toNat, octet.toNat_lt⟩
  rw [UInt8.ofNat_toNat] at result
  exact result

theorem Percent.separator_not_mem_encode {separator : Char} (separates : isSeparator separator = true)
    (value : String) : separator ∉ (encode value).toList := by
  intro member
  rw [encode, String.toList_ofList] at member
  obtain ⟨octet, _, written⟩ := List.mem_flatMap.mp member
  exact List.any_eq_false.mp (any_isSeparator_encodedOctet octet) separator written separates

/-! ### Parameters -/

def writtenParameter (parameter : String × String) : List Char :=
  (Percent.encode parameter.1).toList ++ '=' :: (Percent.encode parameter.2).toList

def writtenParameters (parameters : List (String × String)) : List Char :=
  ['&'].intercalate (parameters.map writtenParameter)

theorem divided_append {name value : List Char} (free : '=' ∉ name) :
    divided (name ++ '=' :: value) = (name, value) := by
  have passes (character : Char) (member : character ∈ name) : decide (character ≠ '=') = true := by
    apply decide_eq_true
    intro same
    rw [same] at member
    exact free member
  unfold divided
  rw [List.takeWhile_append_of_pos passes, List.dropWhile_append_of_pos passes]
  simp

private theorem readParameter_written (parameter : String × String) :
    readParameter (writtenParameter parameter) = .ok parameter := by
  unfold readParameter writtenParameter
  rw [divided_append (Percent.separator_not_mem_encode rfl parameter.1)]
  simp [Percent.decode_encode, bind, Except.bind]

private theorem pieces_written (parameters : List (String × String)) :
    pieces (String.ofList (writtenParameters parameters)) = parameters.map writtenParameter := by
  unfold pieces writtenParameters
  rw [String.toList_ofList]
  cases parameters with
  | nil =>
      rfl
  | cons parameter parameters =>
      rw [List.splitOn_intercalate]
      · apply List.filter_eq_self.mpr
        intro piece member
        obtain ⟨_, _, written⟩ := List.mem_map.mp member
        simp [← written, writtenParameter]
      · intro piece member
        obtain ⟨written, _, same⟩ := List.mem_map.mp member
        have inName := @Percent.separator_not_mem_encode '&' rfl written.1
        have inValue := @Percent.separator_not_mem_encode '&' rfl written.2
        simp [← same, writtenParameter, inName, inValue]
      · simp

theorem readParameters_written (parameters : List (String × String)) :
    readParameters (String.ofList (writtenParameters parameters)) = .ok parameters := by
  unfold readParameters
  rw [pieces_written]
  apply mapM_eq_ok_iff.mpr
  rw [List.forall₂_map_left_iff]
  apply List.forall₂_same.mpr
  intro parameter _
  exact readParameter_written parameter

end SamlGate
