import SamlGate.CommandLine.Command
import SamlGate.Text.Number

/-!
Arguments of the command line.

Options stand before or after the name of the command; those of a command follow its name. An option is
given at most once at either place, with its value behind an equals sign or as the next word, which then
must not look like an option. Letters of short options may share a word. Behind two dashes every word is an
operand. Words are taken in order, so whichever of a fault and a request for the version comes first
settles what happens. The word `help` in place of a command takes all words behind it.
-/

namespace SamlGate

inductive Invocation where
  | run (limits : Limits) (command : Command)
  | version
  | help
  | unusable
  deriving DecidableEq, Repr

inductive Verb where
  | checkRedirect
  | checkPost
  | resolveAcs
  | decode
  deriving DecidableEq, Repr

def Verb.ofWord? (word : String) : Option Verb :=
  if word = "check-redirect" then some .checkRedirect
  else if word = "check-post" then some .checkPost
  else if word = "resolve-acs" then some .resolveAcs
  else if word = "decode" then some .decode
  else none

inductive Setting where
  | encodedLimit
  | inflatedLimit
  | nodeLimit
  | service
  | identity
  | binding
  | encoding
  deriving DecidableEq, Repr

inductive Switch where
  | verbose
  | posted
  | version
  | help
  deriving DecidableEq, Repr

/-- The options with values that may be given before a command, or behind its name. -/
def settings (verb : Option Verb) : List (String × Setting) :=
  [("max-encoded-len", .encodedLimit), ("max-inflated-len", .inflatedLimit),
   ("nodes-limit", .nodeLimit)]
    ++ match verb with
      | none => []
      | some .checkRedirect => [("sp", .service), ("idp", .identity)]
      | some .checkPost => [("sp", .service), ("idp", .identity)]
      | some .resolveAcs => [("sp", .service), ("binding", .binding)]
      | some .decode => [("encoding", .encoding)]

def switches (verb : Option Verb) : List (String × Switch) :=
  [("verbose", .verbose), ("help", .help)]
    ++ match verb with
      | none => [("version", .version)]
      | some .decode => [("post", .posted)]
      | some _ => []

def letters (verb : Option Verb) : List (Char × Switch) :=
  [('v', .verbose), ('h', .help)] ++ (if verb.isNone then [('V', .version)] else [])

structure Draft where
  limits : Limits := {}
  verb : Option Verb := none
  /-- The options given since the beginning, or since the name of the command. -/
  given : List Setting := []
  pending : Option Setting := none
  onlyOperands : Bool := false
  service : Option String := none
  identity : Option String := none
  binding : Option String := none
  encoding : String := ""
  posted : Bool := false
  operand : Option String := none
  deriving DecidableEq, Repr

/-! ### Values -/

def readSize? (text : String) : Option UInt64 :=
  (Text.natural? text).bind
    (fun value => if value < UInt64.size then some (UInt64.ofNat value) else none)

/-- A number of nodes, as a word of 32 bits. Zero may be written with a minus sign. -/
def readCount? (text : String) : Option UInt32 :=
  let value? :=
    match text.toList with
    | '-' :: rest => (Text.digits? rest).filter (fun value => value = 0)
    | _ => Text.natural? text
  value?.bind (fun value => if value < UInt32.size then some (UInt32.ofNat value) else none)

def readPath? (text : String) : Option String :=
  if text = "" then none else some text

/-- Takes the value of an option, unless it is given again or the value does not serve. -/
def Draft.set? (draft : Draft) (setting : Setting) (value : String) : Option Draft :=
  if setting ∈ draft.given then none
  else
    let draft := { draft with given := setting :: draft.given, pending := none }
    match setting with
    | .encodedLimit =>
      (readSize? value).map fun size => { draft with limits := { draft.limits with encoded := size } }
    | .inflatedLimit =>
      (readSize? value).map fun size => { draft with limits := { draft.limits with inflated := size } }
    | .nodeLimit =>
      (readCount? value).map fun count => { draft with limits := { draft.limits with nodes := count } }
    | .service => (readPath? value).map fun path => { draft with service := some path }
    | .identity => (readPath? value).map fun path => { draft with identity := some path }
    | .binding => some { draft with binding := some value }
    | .encoding => some { draft with encoding := value }

/-- Takes an operand: first the name of a command, then the one operand that commands have at most. -/
def Draft.addOperand? (draft : Draft) (word : String) : Option Draft :=
  match draft.verb with
  | none =>
    if draft.onlyOperands then none
    else (Verb.ofWord? word).map fun verb => { draft with verb := some verb, given := [] }
  | some .resolveAcs => none
  | some _ => if draft.operand.isSome then none else some { draft with operand := some word }

/-! ### Words -/

inductive Progress where
  | going (draft : Draft)
  | settled (invocation : Invocation)

def Progress.ofOption (next : Option Draft) : Progress :=
  (next.map Progress.going).getD (.settled .unusable)

def Draft.turn (draft : Draft) : Switch → Progress
  | .verbose => .going draft
  | .posted => if draft.posted then .settled .unusable else .going { draft with posted := true }
  | .version => .settled .version
  | .help => .settled .help

def Draft.turnLetters (draft : Draft) : List Char → Progress
  | [] => .going draft
  | letter :: rest =>
    match (letters draft.verb).lookup letter with
    | none => .settled .unusable
    | some switch =>
      match draft.turn switch with
      | .going next => next.turnLetters rest
      | settled => settled

/-- Takes a word with two dashes, of which `name` is what follows them up to an equals sign. -/
def Draft.takeLong (draft : Draft) (name : String) (value : Option String) : Progress :=
  match (settings draft.verb).lookup name, (switches draft.verb).lookup name, value with
  | some setting, _, some text => .ofOption (draft.set? setting text)
  | some setting, _, none => .going { draft with pending := some setting }
  | none, some switch, none => draft.turn switch
  | none, _, _ => .settled .unusable

def Draft.take (draft : Draft) (word : String) : Progress :=
  if draft.onlyOperands then .ofOption (draft.addOperand? word)
  else
    match draft.pending, word.toList with
    | some setting, [] => .ofOption (draft.set? setting word)
    | some setting, ['-'] => .ofOption (draft.set? setting word)
    | some _, '-' :: _ => .settled .unusable
    | some setting, _ => .ofOption (draft.set? setting word)
    | none, ['-', '-'] => .going { draft with onlyOperands := true }
    | none, '-' :: '-' :: long =>
      let name := String.ofList (long.takeWhile (· ≠ '='))
      match long.dropWhile (· ≠ '=') with
      | [] => draft.takeLong name none
      | _ :: value => draft.takeLong name (some (String.ofList value))
    | none, '-' :: letter :: rest => draft.turnLetters (letter :: rest)
    | none, _ => .ofOption (draft.addOperand? word)

/-- What the words behind `help` ask for: they name at most one command, of which `help` itself is one. -/
def Invocation.ofHelp : List String → Invocation
  | [] => .help
  | [word] => if word = "help" ∨ (Verb.ofWord? word).isSome then .help else .unusable
  | _ => .unusable

/-- A word asks for help if it stands where the name of a command is due. -/
def Draft.asksHelp (draft : Draft) (word : String) : Bool :=
  word = "help" && draft.verb.isNone && draft.pending.isNone && !draft.onlyOperands

def Draft.command? (draft : Draft) : Option Command := do
  match ← draft.verb with
  | .checkRedirect => pure (.checkRedirect (← draft.service) draft.identity (← draft.operand))
  | .checkPost => pure (.checkPost (← draft.service) draft.identity (← draft.operand))
  | .resolveAcs => pure (.resolveAcs (← draft.service) (← draft.binding))
  | .decode => pure (.decode draft.encoding draft.posted (← draft.operand))

def Draft.finish (draft : Draft) : Invocation :=
  if draft.pending.isSome then .unusable
  else
    match draft.command? with
    | some command => .run draft.limits command
    | none => .unusable

def Draft.readAll (draft : Draft) : List String → Invocation
  | [] => draft.finish
  | word :: rest =>
    if draft.asksHelp word then .ofHelp rest
    else
      match draft.take word with
      | .going next => next.readAll rest
      | .settled invocation => invocation

def Invocation.read (arguments : List String) : Invocation :=
  Draft.readAll {} arguments

end SamlGate
