import SamlGate.Codec.Percent
import SamlGate.Login.Binding
import SamlGate.Login.Limits

/-!
Submissions: the parameters of a login request, as they arrive.

A request arrives in the query of a URL or in the body of a form. Both are lists of names and values in
form encoding, of which every piece must be readable, needed or not. The first value under a name is the
one that counts. A form carries no parameters for a signature, because the document in it is signed.
-/

namespace SamlGate

inductive Carrier where
  | query
  | form
  deriving DecidableEq, Repr

def Carrier.binding : Carrier → Binding
  | query => .redirect
  | form => .post

/-! ### Parameters -/

/-- A piece between separators, divided at its first equals sign; without one the value is empty. -/
def divided (piece : List Char) : List Char × List Char :=
  (piece.takeWhile (· ≠ '='), (piece.dropWhile (· ≠ '=')).drop 1)

def readParameter (piece : List Char) : Except Error (String × String) := do
  let (name, value) := divided piece
  let readName ← Percent.decode (String.ofList name)
  let readValue ← Percent.decode (String.ofList value)
  .ok (readName, readValue)

def pieces (raw : String) : List (List Char) :=
  (raw.toList.splitOn '&').filter (fun piece => !piece.isEmpty)

def readParameters (raw : String) : Except Error (List (String × String)) :=
  (pieces raw).mapM readParameter

def firstValue (parameters : List (String × String)) (name : String) : String :=
  (parameters.lookup name).getD ""

/-! ### The parameters of a request -/

structure Submission where
  carrier : Carrier
  /-- The document of the request, still encoded. -/
  request : String
  encoding : String
  relayState : String
  signatureAlgorithm : String
  signature : String
  deriving DecidableEq, Repr

def Submission.ofParameters (carrier : Carrier) (parameters : List (String × String)) : Submission :=
  let signing := fun name =>
    match carrier with
    | .query => firstValue parameters name
    | .form => ""
  { carrier := carrier
    request := firstValue parameters "SAMLRequest"
    encoding := signing "SAMLEncoding"
    relayState := firstValue parameters "RelayState"
    signatureAlgorithm := signing "SigAlg"
    signature := signing "Signature" }

def Limits.checkEncoded (limits : Limits) (request : String) : Except Error Unit :=
  if limits.encoded.toNat < request.utf8ByteSize then
    .error (.malformed (.requestTooLong request.utf8ByteSize limits.encoded.toNat))
  else .ok ()

def Submission.read (limits : Limits) (carrier : Carrier) (raw : String) :
    Except Error Submission := do
  let parameters ← readParameters raw
  let submission := Submission.ofParameters carrier parameters
  if submission.request = "" then .error (.malformed .missingRequest)
  else do
    limits.checkEncoded submission.request
    .ok submission

end SamlGate
