import SamlGate.Login.Gate
import SamlGate.Login.Metadata

/-!
What the command line can do.

Each command answers with the text it prints or with an error. The files it names are given as a function
from paths, so a command is decided by its arguments and by what those files say.
-/

namespace SamlGate

inductive Command where
  | checkRedirect (service : String) (identity : Option String) (query : String)
  | checkPost (service : String) (identity : Option String) (body : String)
  | resolveAcs (service binding : String)
  | decode (encoding : String) (posted : Bool) (request : String)
  deriving DecidableEq, Repr

abbrev Files := String → Except UnreadableFile String

namespace Command

def fileText (files : Files) (path : String) : Except Error String :=
  (files path).mapError Error.file

def filePath? (argument : String) : Option String :=
  match argument.toList with
  | '@' :: path => some (String.ofList path)
  | _ => none

def argumentText (files : Files) (argument : String) : Except Error String :=
  match filePath? argument with
  | some path => fileText files path
  | none => .ok argument

def paths : Command → List String
  | checkRedirect service identity _ => service :: identity.toList
  | checkPost service identity body => service :: (identity.toList ++ (filePath? body).toList)
  | resolveAcs service _ => [service]
  | decode _ _ request => (filePath? request).toList

def readService (files : Files) (path : String) : Except Error ServiceProvider := do
  let text ← fileText files path
  ServiceProvider.read text

/-- Without metadata the identity provider declares nothing. -/
def readIdentity (files : Files) : Option String → Except Error IdentityProvider
  | none => .ok {}
  | some path => do
    let text ← fileText files path
    IdentityProvider.read text

/-- The query of a URL, which follows its first question mark; a text without one is a query itself. -/
def queryOf (argument : String) : String :=
  match argument.toList.dropWhile (· ≠ '?') with
  | [] => argument
  | _ :: query => String.ofList query

/-- The binding that an argument names, in any case of its letters, or gives as a URI. -/
def bindingOf (argument : String) : Binding :=
  let short := String.ofList (argument.toList.map Char.toLower)
  if short = "redirect" then .redirect
  else if short = "post" then .post
  else if short = "artifact" then .artifact
  else if short = "soap" then .soap
  else Binding.ofUri argument

/-! ### Printing -/

def verdict (verified : Bool) : String :=
  if verified then "verified" else "not required"

def summary (accepted : AcceptedRequest) : List String :=
  let request := accepted.request
  let relayState := accepted.submission.relayState
  ["OK",
    "Binding: " ++ accepted.submission.carrier.binding.uri,
    "ID: " ++ request.id,
    "IssueInstant: " ++ request.issueInstant]
    ++ (request.issuer.map (fun issuer => "Issuer: " ++ issuer)).toList
    ++ ["ACS: " ++ accepted.endpoint.location ++ " (" ++ accepted.endpoint.binding.uri ++ ")"]
    ++ (if relayState = "" then [] else ["RelayState: " ++ relayState])
    ++ ["Signature: " ++ verdict accepted.verified]

def printed (lines : List String) : String :=
  String.join (lines.map (fun line => line ++ "\n"))

/-! ### Running -/

def check (limits : Limits) (files : Files) (service : String) (identity : Option String)
    (carrier : Carrier) (raw : Except Error String) : Except Failure String := do
  let serviceProvider ← readService files service
  let identityProvider ← readIdentity files identity
  let text ← raw
  let accepted ← accept limits carrier text serviceProvider identityProvider
  .ok (printed (summary accepted))

def run (limits : Limits) (files : Files) : Command → Except Failure String
  | checkRedirect service identity query =>
    check limits files service identity .query (.ok (queryOf query))
  | checkPost service identity body =>
    check limits files service identity .form ((argumentText files body).map Text.trim)
  | resolveAcs service binding => do
    let provider ← readService files service
    match chooseEndpoint? provider.endpoints (bindingOf binding) with
    | some endpoint => .ok (printed [endpoint.location, endpoint.binding.uri])
    | none => .error (.rejected (.malformed .metadataWithoutEndpoint))
  | decode encoding posted request => do
    let text ← argumentText files request
    let document ←
      if posted then formDocument limits (Text.trim text)
      else queryDocument limits (Text.trim text) encoding
    .ok (printed [document])

end Command

end SamlGate
