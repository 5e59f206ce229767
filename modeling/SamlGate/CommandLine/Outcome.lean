import SamlGate.CommandLine.Arguments

/-!
How a run of the program ends: its exit code, what it prints, and the error it reports.

A command that succeeds exits with zero, one that reports an error with one, and arguments that cannot be
used with two and nothing printed. One that stops at an overflow exits with 101, and neither prints nor reports
anything.
-/

namespace SamlGate

structure Outcome where
  code : UInt32
  printed : String
  error : Option Error
  deriving DecidableEq, Repr

def versionText : String := "ulriksdal 0.1.0\n"

def helpText : String :=
  Command.printed
    ["Validate SAML 2.0 login requests.",
     "",
     "Usage: [OPTIONS] <COMMAND>",
     "",
     "Commands:",
     "  check-redirect --sp <FILE> [--idp <FILE>] <QUERY or URL>",
     "  check-post     --sp <FILE> [--idp <FILE>] <BODY or @FILE>",
     "  resolve-acs    --sp <FILE> --binding <BINDING>",
     "  decode         [--encoding <URI>] [--post] <REQUEST or @FILE>",
     "  help",
     "",
     "Options:",
     "  --max-encoded-len <OCTETS>   longest request parameter",
     "  --max-inflated-len <OCTETS>  longest request document",
     "  --nodes-limit <NODES>        most nodes of a request document",
     "  -v, --verbose                accepted, without effect",
     "  -h, --help                   print this text",
     "  -V, --version                print the version"]

def Outcome.ofResult : Except Failure String → Outcome
  | .ok printed => ⟨0, printed, none⟩
  | .error (.rejected error) => ⟨1, "", some error⟩
  | .error .overflow => ⟨101, "", none⟩

def Invocation.outcome (files : Files) : Invocation → Outcome
  | run limits command => .ofResult (command.run limits files)
  | version => ⟨0, versionText, none⟩
  | help => ⟨0, helpText, none⟩
  | unusable => ⟨2, "", none⟩

def Invocation.paths : Invocation → List String
  | run _ command => command.paths
  | _ => []

end SamlGate
