import SamlGate.Codec.Deflate.Block

/-!
Inflating a DEFLATE stream.

The stream comes in portions, and the output leaves through a window that is emptied when it is full. A
machine goes on until the last block ends, until the octets at hand end in the middle of an item, or until
the window is full while there is something to put out. It is resumed where it paused, so how the stream is
cut changes nothing about the output.

Faults show when they are met. Whoever wants only the first octets does not resume the machine once they
are out, so a fault behind that pause is not seen. A stream that ends too soon is a fault that shows when
the machine has been resumed without a further portion. What follows the last block is not looked at.

A copy may reach back before the beginning of the output; the octets found there are zero.
-/

namespace SamlGate.Deflate

/-! ### Items -/

/-- What the machine does next. `last` marks the last block. -/
inductive Phase where
  | head
  | stored (length : Nat) (last : Bool)
  | coded (codes : Codes) (last : Bool)
  | octet (value : UInt8) (codes : Codes) (last : Bool)
  | copy (distance length : Nat) (codes : Codes) (last : Bool)
  | finished

def Phase.afterBlock (last : Bool) : Phase :=
  if last then .finished else .head

/-- The base value and the number of extra bits of the copy lengths 257 to 285. -/
def lengthTable : Array (Nat × Nat) :=
  #[(3, 0), (4, 0), (5, 0), (6, 0), (7, 0), (8, 0), (9, 0), (10, 0), (11, 1), (13, 1), (15, 1), (17, 1),
    (19, 2), (23, 2), (27, 2), (31, 2), (35, 3), (43, 3), (51, 3), (59, 3), (67, 4), (83, 4), (99, 4),
    (115, 4), (131, 5), (163, 5), (195, 5), (227, 5), (258, 0)]

/-- The base value and the number of extra bits of the copy distances 0 to 29. -/
def distanceTable : Array (Nat × Nat) :=
  #[(1, 0), (2, 0), (3, 0), (4, 0), (5, 1), (7, 1), (9, 2), (13, 2), (17, 3), (25, 3), (33, 4), (49, 4),
    (65, 5), (97, 5), (129, 6), (193, 6), (257, 7), (385, 7), (513, 8), (769, 8), (1025, 9), (1537, 9),
    (2049, 10), (3073, 10), (4097, 11), (6145, 11), (8193, 12), (12289, 12), (16385, 13), (24577, 13)]

def readExtended (table : Array (Nat × Nat)) (index : Nat) (bits : Bits) :
    Except Fault (Nat × Bits) :=
  match table[index]? with
  | none => .error .corrupt
  | some (base, width) => do
    let (extra, behind) ← readNumber width bits
    pure (base + extra, behind)

def readBlock (bits : Bits) : Except Fault (Phase × Bits) := do
  let (last, body, bits) ← readHead bits
  match body with
  | .stored length => pure (.stored length last, bits)
  | .coded codes => pure (.coded codes last, bits)

def readItem (codes : Codes) (last : Bool) (bits : Bits) : Except Fault (Phase × Bits) := do
  let (symbol, bits) ← codes.literals.read bits
  if symbol < 256 then pure (.octet (UInt8.ofNat symbol) codes last, bits)
  else if symbol = 256 then pure (.afterBlock last, bits)
  else
    let (length, bits) ← readExtended lengthTable (symbol - 257) bits
    let (index, bits) ← codes.distances.read bits
    let (distance, bits) ← readExtended distanceTable index bits
    pure (.copy distance length codes last, bits)

/-! ### The machine -/

structure Machine where
  bits : Bits
  output : Array UInt8
  phase : Phase

def Machine.start : Machine :=
  ⟨.empty, #[], .head⟩

inductive Pause where
  | finished
  | full
  | fault (cause : Fault)

inductive Progress where
  | going (machine : Machine)
  | paused (cause : Pause) (machine : Machine)

/-- Takes over what has been read; a fault leaves the machine where it is. -/
def Machine.after (machine : Machine) : Except Fault (Phase × Bits) → Progress
  | .ok (phase, bits) => .going { machine with bits := bits, phase := phase }
  | .error fault => .paused (.fault fault) machine

/-- The output followed by `length` octets, each equal to the one `distance` before it. -/
def copied (distance : Nat) : (length : Nat) → Array UInt8 → Array UInt8
  | 0, output => output
  | length + 1, output =>
    let octet := if distance ≤ output.size then output[output.size - distance]?.getD 0 else 0
    copied distance length (output.push octet)

def Machine.step (bound : Nat) (machine : Machine) : Progress :=
  match machine.phase with
  | .finished => .paused .finished machine
  | .head => machine.after (readBlock machine.bits)
  | .coded codes last => machine.after (readItem codes last machine.bits)
  | .stored 0 last => .going { machine with phase := .afterBlock last }
  | .stored (length + 1) last =>
    if bound ≤ machine.output.size then .paused .full machine
    else
      match readNumber 8 machine.bits with
      | .ok (value, bits) =>
        .going ⟨bits, machine.output.push (UInt8.ofNat value), .stored length last⟩
      | .error fault => .paused (.fault fault) machine
  | .octet value codes last =>
    if bound ≤ machine.output.size then .paused .full machine
    else .going ⟨machine.bits, machine.output.push value, .coded codes last⟩
  | .copy distance length codes last =>
    if length = 0 then .going { machine with phase := .coded codes last }
    else if bound ≤ machine.output.size then .paused .full machine
    else
      let part := min length (bound - machine.output.size)
      .going ⟨machine.bits, copied distance part machine.output,
        .copy distance (length - part) codes last⟩

def Machine.run (bound : Nat) : (steps : Nat) → Machine → Pause × Machine
  | 0, machine => (.fault .corrupt, machine)
  | steps + 1, machine =>
    match machine.step bound with
    | .going next => next.run bound steps
    | .paused cause stopped => (cause, stopped)

def windowSize : Nat := 32768

/-- Runs the machine until it pauses, within the window that the output has reached. An item takes at least
one bit and at most three steps, and an item that was left half done at most two. -/
def Machine.resume (machine : Machine) : Pause × Machine :=
  machine.run ((machine.output.size / windowSize + 1) * windowSize) (3 * machine.bits.remaining + 4)

/-! ### Streams -/

def portionSize : Nat := 32768

def portionsWithin : (count : Nat) → Octets → List Octets
  | 0, _ => []
  | count + 1, octets =>
    if octets.isEmpty then []
    else octets.take portionSize :: portionsWithin count (octets.drop portionSize)

def portions (octets : Octets) : List Octets :=
  portionsWithin octets.length octets

/-- Resumes the machine until `asked` octets are out or the stream ends, and answers all that is out then.
`used` says that the octets at hand are used up, so that a further portion is due. -/
def Machine.drain (asked : Nat) :
    (pauses : Nat) → (used : Bool) → List Octets → Machine → Option (Array UInt8)
  | 0, _, _, _ => none
  | pauses + 1, used, portions, machine =>
    if asked ≤ machine.output.size then some machine.output
    else
      let due := if used then portions.head? else none
      let further := if used then portions.tail else portions
      let fed := { machine with bits := machine.bits.extended (due.getD []) }
      match fed.resume with
      | (.finished, stopped) => some stopped.output
      | (.full, stopped) => stopped.drain asked pauses stopped.bits.rest.isEmpty further
      | (.fault .truncated, stopped) =>
        if used && due.isNone then none else stopped.drain asked pauses true further
      | (.fault .corrupt, _) => none

/-- Inflates a stream as far as it takes to put out `asked` octets, none if a fault shows before. There may
be more octets than asked for, and fewer if the stream holds no more. The machine pauses once for each
portion, once for each window, and at the end. -/
def inflate (asked : Nat) (octets : Octets) : Option (Array UInt8) :=
  Machine.start.drain asked ((portions octets).length + asked / windowSize + 3) true (portions octets)

end SamlGate.Deflate
