import SamlGate.Digest.Padding

/-!
The SHA-2 digests, over words of 32 or 64 bits.

Both widths run the same rounds and differ in rotation distances and in how many rounds there are. The
constants are the first bits behind the point of cube roots and square roots of primes, so those for
the short words are the upper halves of those for the long ones, or, for the initial state of the
224-bit digest, the lower halves.
-/

namespace SamlGate.Digest.Sha2

/-- The cube roots of the first eighty primes, 64 bits behind the point. -/
def cubeRoots : List (BitVec 64) :=
  [0x428A2F98D728AE22, 0x7137449123EF65CD, 0xB5C0FBCFEC4D3B2F, 0xE9B5DBA58189DBBC,
    0x3956C25BF348B538, 0x59F111F1B605D019, 0x923F82A4AF194F9B, 0xAB1C5ED5DA6D8118,
    0xD807AA98A3030242, 0x12835B0145706FBE, 0x243185BE4EE4B28C, 0x550C7DC3D5FFB4E2,
    0x72BE5D74F27B896F, 0x80DEB1FE3B1696B1, 0x9BDC06A725C71235, 0xC19BF174CF692694,
    0xE49B69C19EF14AD2, 0xEFBE4786384F25E3, 0x0FC19DC68B8CD5B5, 0x240CA1CC77AC9C65,
    0x2DE92C6F592B0275, 0x4A7484AA6EA6E483, 0x5CB0A9DCBD41FBD4, 0x76F988DA831153B5,
    0x983E5152EE66DFAB, 0xA831C66D2DB43210, 0xB00327C898FB213F, 0xBF597FC7BEEF0EE4,
    0xC6E00BF33DA88FC2, 0xD5A79147930AA725, 0x06CA6351E003826F, 0x142929670A0E6E70,
    0x27B70A8546D22FFC, 0x2E1B21385C26C926, 0x4D2C6DFC5AC42AED, 0x53380D139D95B3DF,
    0x650A73548BAF63DE, 0x766A0ABB3C77B2A8, 0x81C2C92E47EDAEE6, 0x92722C851482353B,
    0xA2BFE8A14CF10364, 0xA81A664BBC423001, 0xC24B8B70D0F89791, 0xC76C51A30654BE30,
    0xD192E819D6EF5218, 0xD69906245565A910, 0xF40E35855771202A, 0x106AA07032BBD1B8,
    0x19A4C116B8D2D0C8, 0x1E376C085141AB53, 0x2748774CDF8EEB99, 0x34B0BCB5E19B48A8,
    0x391C0CB3C5C95A63, 0x4ED8AA4AE3418ACB, 0x5B9CCA4F7763E373, 0x682E6FF3D6B2B8A3,
    0x748F82EE5DEFB2FC, 0x78A5636F43172F60, 0x84C87814A1F0AB72, 0x8CC702081A6439EC,
    0x90BEFFFA23631E28, 0xA4506CEBDE82BDE9, 0xBEF9A3F7B2C67915, 0xC67178F2E372532B,
    0xCA273ECEEA26619C, 0xD186B8C721C0C207, 0xEADA7DD6CDE0EB1E, 0xF57D4F7FEE6ED178,
    0x06F067AA72176FBA, 0x0A637DC5A2C898A6, 0x113F9804BEF90DAE, 0x1B710B35131C471B,
    0x28DB77F523047D84, 0x32CAAB7B40C72493, 0x3C9EBE0A15C9BEBC, 0x431D67C49C100D4C,
    0x4CC5D4BECB3E42B6, 0x597F299CFC657E2A, 0x5FCB6FAB3AD6FAEC, 0x6C44198C4A475817]

def squareRoots : List (BitVec 64) :=
  [0x6A09E667F3BCC908, 0xBB67AE8584CAA73B, 0x3C6EF372FE94F82B, 0xA54FF53A5F1D36F1,
    0x510E527FADE682D1, 0x9B05688C2B3E6C1F, 0x1F83D9ABFB41BD6B, 0x5BE0CD19137E2179]

def furtherSquareRoots : List (BitVec 64) :=
  [0xCBBB9D5DC1059ED8, 0x629A292A367CD507, 0x9159015A3070DD17, 0x152FECD8F70E5939,
    0x67332667FFC00B31, 0x8EB44A8768581511, 0xDB0C2E0D64F98FA7, 0x47B5481DBEFA4FA4]

def upperHalf (word : BitVec 64) : BitVec 32 :=
  word.extractLsb' 32 32

def lowerHalf (word : BitVec 64) : BitVec 32 :=
  word.extractLsb' 0 32

/-- Two rotations and a third rotation or shift, by these distances. -/
structure Distances where
  first : Nat
  second : Nat
  third : Nat

/-- What the two widths do differently. -/
structure Parameters (width : Nat) where
  constants : List (BitVec width)
  stateLow : Distances
  stateHigh : Distances
  scheduleLow : Distances
  scheduleHigh : Distances

def short : Parameters 32 where
  constants := (cubeRoots.take 64).map upperHalf
  stateLow := ⟨2, 13, 22⟩
  stateHigh := ⟨6, 11, 25⟩
  scheduleLow := ⟨7, 18, 3⟩
  scheduleHigh := ⟨17, 19, 10⟩

def long : Parameters 64 where
  constants := cubeRoots
  stateLow := ⟨28, 34, 39⟩
  stateHigh := ⟨14, 18, 41⟩
  scheduleLow := ⟨1, 8, 7⟩
  scheduleHigh := ⟨19, 61, 6⟩

structure State (width : Nat) where
  a : BitVec width
  b : BitVec width
  c : BitVec width
  d : BitVec width
  e : BitVec width
  f : BitVec width
  g : BitVec width
  h : BitVec width

variable {width : Nat}

def State.words (state : State width) : List (BitVec width) :=
  [state.a, state.b, state.c, state.d, state.e, state.f, state.g, state.h]

def State.ofWords (words : List (BitVec width)) : State width :=
  let word := fun index => words.getD index 0
  ⟨word 0, word 1, word 2, word 3, word 4, word 5, word 6, word 7⟩

def State.add (left right : State width) : State width :=
  State.ofWords (List.zipWith (· + ·) left.words right.words)

def rotations (distances : Distances) (word : BitVec width) : BitVec width :=
  word.rotateRight distances.first ^^^ word.rotateRight distances.second
    ^^^ word.rotateRight distances.third

def shifts (distances : Distances) (word : BitVec width) : BitVec width :=
  word.rotateRight distances.first ^^^ word.rotateRight distances.second ^^^ word >>> distances.third

def nextWord (parameters : Parameters width) (recent : List (BitVec width)) : BitVec width :=
  shifts parameters.scheduleHigh (recent.getD 1 0) + recent.getD 6 0
    + shifts parameters.scheduleLow (recent.getD 14 0) + recent.getD 15 0

def schedule (parameters : Parameters width) (block : List (BitVec width)) : List (BitVec width) :=
  ((List.range (parameters.constants.length - 16)).foldl
    (fun recent _ => nextWord parameters recent :: recent) block.reverse).reverse

def round (parameters : Parameters width) (state : State width)
    (given : BitVec width × BitVec width) : State width :=
  let choice := (state.e &&& state.f) ^^^ (~~~state.e &&& state.g)
  let majority := (state.a &&& state.b) ^^^ (state.a &&& state.c) ^^^ (state.b &&& state.c)
  let added := state.h + rotations parameters.stateHigh state.e + choice + given.1 + given.2
  { a := added + rotations parameters.stateLow state.a + majority
    b := state.a, c := state.b, d := state.c
    e := state.d + added
    f := state.e, g := state.f, h := state.g }

def absorb (parameters : Parameters width) (state : State width) (block : List (BitVec width)) :
    State width :=
  state.add
    ((parameters.constants.zip (schedule parameters block)).foldl (round parameters) state)

def final (parameters : Parameters width) (initial : List (BitVec width)) (message : Octets) : Octets :=
  octetsOfWords
    ((blocks width message).foldl (absorb parameters) (State.ofWords initial)).words

def digest224 (message : Octets) : Octets :=
  (final short (furtherSquareRoots.map lowerHalf) message).take 28

def digest256 (message : Octets) : Octets :=
  final short (squareRoots.map upperHalf) message

def digest384 (message : Octets) : Octets :=
  (final long furtherSquareRoots message).take 48

def digest512 (message : Octets) : Octets :=
  final long squareRoots message

end SamlGate.Digest.Sha2
