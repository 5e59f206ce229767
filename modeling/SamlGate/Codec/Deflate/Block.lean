import SamlGate.Codec.Deflate.Code

/-!
The heads of DEFLATE blocks.

A block begins with a mark on the last one and its type. A stored block states its length twice, once
complemented. A coded block uses the fixed codes or states the lengths of its own words, which are
themselves written in a code.
-/

namespace SamlGate.Deflate

/-- The two codes of a block: octets, ends and copy lengths in one, copy distances in the other. -/
structure Codes where
  literals : Code
  distances : Code

inductive Body where
  | stored (length : Nat)
  | coded (codes : Codes)

def readNumber (width : Nat) (bits : Bits) : Except Fault (Nat × Bits) :=
  match bits.number? width with
  | some found => .ok found
  | none => .error .truncated

def fixedCodes : Codes where
  literals := Code.ofLengths
    (List.replicate 144 8 ++ List.replicate 112 9 ++ List.replicate 24 7 ++ List.replicate 8 8)
  distances := Code.ofLengths (List.replicate 32 5)

/-- The order in which the lengths of the words for lengths are stated. -/
def lengthOrder : List Nat :=
  [16, 17, 18, 0, 8, 7, 9, 6, 10, 5, 11, 4, 12, 3, 13, 2, 14, 1, 15]

def readWidths : (count : Nat) → Bits → Except Fault (List Nat × Bits)
  | 0, bits => .ok ([], bits)
  | count + 1, bits => do
    let (width, behind) ← readNumber 3 bits
    let (widths, remaining) ← readWidths count behind
    pure (width :: widths, remaining)

def codeOfLengths (widths : List Nat) : Code :=
  let stated := lengthOrder.zip widths
  Code.ofLengths ((List.range 19).map (fun symbol => (stated.lookup symbol).getD 0))

/-- Reads word lengths until `wanted` are there; `read` holds them, the last one first. A symbol above
fifteen repeats a length: the last one three to six times, or zero three to ten or eleven to 138 times.
Each symbol yields at least one length, so `steps` need not exceed `wanted`. -/
def readLengths (code : Code) (wanted : Nat) :
    (steps : Nat) → (read : List Nat) → Bits → Except Fault (List Nat × Bits)
  | steps, read, bits =>
    if wanted < read.length then .error .corrupt
    else if read.length = wanted then .ok (read.reverse, bits)
    else
      match steps with
      | 0 => .error .corrupt
      | steps + 1 => do
        let (symbol, behind) ← code.read bits
        if symbol < 16 then
          readLengths code wanted steps (symbol :: read) behind
        else if symbol = 16 then
          match read with
          | [] => .error .corrupt
          | last :: _ =>
            let (extra, remaining) ← readNumber 2 behind
            readLengths code wanted steps (List.replicate (3 + extra) last ++ read) remaining
        else if symbol = 17 then
          let (extra, remaining) ← readNumber 3 behind
          readLengths code wanted steps (List.replicate (3 + extra) 0 ++ read) remaining
        else
          let (extra, remaining) ← readNumber 7 behind
          readLengths code wanted steps (List.replicate (11 + extra) 0 ++ read) remaining

def readCodes (bits : Bits) : Except Fault (Codes × Bits) := do
  let (literalCount, bits) ← readNumber 5 bits
  let (distanceCount, bits) ← readNumber 5 bits
  let (widthCount, bits) ← readNumber 4 bits
  if literalCount > 29 ∨ distanceCount > 29 then .error .corrupt
  let (widths, bits) ← readWidths (widthCount + 4) bits
  let lengthCode := codeOfLengths widths
  if !lengthCode.isComplete then .error .corrupt
  let wanted := literalCount + 257 + (distanceCount + 1)
  let (lengths, bits) ← readLengths lengthCode wanted wanted [] bits
  let literals := Code.ofLengths (lengths.take (literalCount + 257))
  let distances := Code.ofLengths (lengths.drop (literalCount + 257))
  if literals.isUsable && distances.isUsable then pure (⟨literals, distances⟩, bits)
  else .error .corrupt

def readStoredLength (bits : Bits) : Except Fault (Nat × Bits) := do
  let (length, bits) ← readNumber 16 bits.aligned
  let (complement, bits) ← readNumber 16 bits
  if length + complement = 65535 then pure (length, bits) else .error .corrupt

def readHead (bits : Bits) : Except Fault (Bool × Body × Bits) := do
  let (last, bits) ← readNumber 1 bits
  let (type, bits) ← readNumber 2 bits
  match type with
  | 0 =>
    let (length, bits) ← readStoredLength bits
    pure (last = 1, .stored length, bits)
  | 1 => pure (last = 1, .coded fixedCodes, bits)
  | 2 =>
    let (codes, bits) ← readCodes bits
    pure (last = 1, .coded codes, bits)
  | _ => .error .corrupt

end SamlGate.Deflate
