import SamlGate.CommandLine.Outcome

/-!
The program: reads the files that the arguments name, and prints how the run ends.
-/

namespace SamlGate

def faultOf : IO.Error → FileFault
  | .inappropriateType _ code _ =>
    if code.toNat = FileFault.isDirectory.number then .isDirectory else .notDirectory
  | .permissionDenied _ _ _ => .forbidden
  | .invalidArgument _ _ _ => .nameTooLong
  | _ => .absent

def readFile (path : String) : IO (Except UnreadableFile String) := do
  try
    let content ← IO.FS.readBinFile path
    match Octets.text? content.data.toList with
    | some text => return .ok text
    | none => return .error (.notText path)
  catch error => return .error (.faulty path (faultOf error))

def readFiles (paths : List String) : IO Files := do
  let contents ← paths.mapM fun path => do return (path, ← readFile path)
  return fun path => (contents.lookup path).getD (.error (.faulty path .absent))

end SamlGate

open SamlGate in
def main (arguments : List String) : IO UInt32 := do
  let invocation := Invocation.read arguments
  let files ← readFiles invocation.paths
  let outcome := invocation.outcome files
  IO.print outcome.printed
  match outcome.error with
  | some error => IO.eprintln ("Error: " ++ error.message)
  | none =>
    if outcome.code = 2 then IO.eprint helpText
  return outcome.code
