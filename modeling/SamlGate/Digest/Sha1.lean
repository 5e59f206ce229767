import SamlGate.Digest.Padding

/-!
The SHA-1 digest: 160 bits from words of 32 bits, eighty rounds a block.
-/

namespace SamlGate.Digest.Sha1

abbrev Word := BitVec 32

structure State where
  a : Word
  b : Word
  c : Word
  d : Word
  e : Word

def State.initial : State :=
  ⟨0x67452301, 0xEFCDAB89, 0x98BADCFE, 0x10325476, 0xC3D2E1F0⟩

def State.words (state : State) : List Word :=
  [state.a, state.b, state.c, state.d, state.e]

def State.add (left right : State) : State :=
  ⟨left.a + right.a, left.b + right.b, left.c + right.c, left.d + right.d, left.e + right.e⟩

/-- The word behind those of a schedule that is listed last word first. -/
def nextWord (recent : List Word) : Word :=
  (recent.getD 2 0 ^^^ recent.getD 7 0 ^^^ recent.getD 13 0 ^^^ recent.getD 15 0).rotateLeft 1

def schedule (block : List Word) : List Word :=
  ((List.range 64).foldl (fun recent _ => nextWord recent :: recent) block.reverse).reverse

/-- How the three middle words are mixed in a round, and the constant of the round. -/
def mixing (index : Nat) (state : State) : Word × Word :=
  if index < 20 then ((state.b &&& state.c) ||| (~~~state.b &&& state.d), 0x5A827999)
  else if index < 40 then (state.b ^^^ state.c ^^^ state.d, 0x6ED9EBA1)
  else if index < 60 then
    ((state.b &&& state.c) ||| (state.b &&& state.d) ||| (state.c &&& state.d), 0x8F1BBCDC)
  else (state.b ^^^ state.c ^^^ state.d, 0xCA62C1D6)

def round (state : State) (numbered : Word × Nat) : State :=
  let (mixed, constant) := mixing numbered.2 state
  ⟨state.a.rotateLeft 5 + mixed + state.e + constant + numbered.1, state.a, state.b.rotateLeft 30,
    state.c, state.d⟩

def absorb (state : State) (block : List Word) : State :=
  state.add ((schedule block).zipIdx.foldl round state)

def digest (message : Octets) : Octets :=
  octetsOfWords ((blocks 32 message).foldl absorb State.initial).words

end SamlGate.Digest.Sha1
