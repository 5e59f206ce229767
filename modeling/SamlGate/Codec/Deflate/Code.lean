import SamlGate.Codec.Deflate.Bits

/-!
Prefix codes given by the lengths of their words.

The words of one length are consecutive numbers, in the order of their symbols, and follow the words of
the length before. A code is therefore a list of levels: the symbols whose words have length one, two,
and so on. Reading walks down the levels and keeps how far the bits read lie above the first word of the
level; a distance below the number of words names a symbol.

A code must use up all bit strings exactly. A code of no word, or of a single word of one bit, may leave
some unused, and bits that lead to them are a fault of the stream.
-/

namespace SamlGate.Deflate

inductive Fault where
  | truncated
  | corrupt
  deriving DecidableEq, Repr

/-- The symbols with words of length one, two, …. -/
abbrev Code := List (Array Nat)

def symbolsOfLength (lengths : List Nat) (length : Nat) : Array Nat :=
  ((lengths.zipIdx.filter (fun entry => entry.1 = length)).map Prod.snd).toArray

/-- The code in which symbol `n` has a word of the `n`th length; length zero leaves a symbol out. -/
def Code.ofLengths (lengths : List Nat) : Code :=
  (List.range (lengths.foldl max 0)).map (fun level => symbolsOfLength lengths (level + 1))

/-- How many words of the length reached remain free after the levels are filled, if they fit. -/
def freeWords? : (free : Nat) → Code → Option Nat
  | free, [] => some free
  | free, level :: levels =>
    if level.size ≤ 2 * free then freeWords? (2 * free - level.size) levels else none

/-- Every bit string has a prefix among the words, and only one. -/
def Code.isComplete (code : Code) : Bool :=
  freeWords? 1 code = some 0

def Code.isScant : Code → Bool
  | [] => true
  | [level] => level.size = 1
  | _ => false

def Code.isUsable (code : Code) : Bool :=
  code.isComplete || code.isScant

/-- Reads one symbol; `above` is how far the bits read so far lie above the first word of their
length. -/
def readSymbol (above : Nat) : Code → Bits → Except Fault (Nat × Bits)
  | [], _ => .error .corrupt
  | level :: levels, bits =>
    match bits.next? with
    | none => .error .truncated
    | some (bit, behind) =>
      match level[2 * above + bit]? with
      | some symbol => .ok (symbol, behind)
      | none => readSymbol (2 * above + bit - level.size) levels behind

/-- Reads one symbol. One bit is needed to find that there is no word. -/
def Code.read (code : Code) (bits : Bits) : Except Fault (Nat × Bits) :=
  if code.isEmpty && bits.next?.isNone then .error .truncated else readSymbol 0 code bits

end SamlGate.Deflate
