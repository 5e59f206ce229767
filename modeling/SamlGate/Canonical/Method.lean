/-!
Canonicalization methods.

Inclusive canonicalization writes every binding in force; exclusive canonicalization writes those that a
tag uses, and those a list of prefixes names. Each exists with and without comments, which makes four
methods, each known by its URI.
-/

namespace SamlGate.Canonical

structure Method where
  exclusive : Bool
  comments : Bool
  deriving DecidableEq, Repr

namespace Method

def uri : Method → String
  | ⟨false, false⟩ => "http://www.w3.org/TR/2001/REC-xml-c14n-20010315"
  | ⟨false, true⟩ => "http://www.w3.org/TR/2001/REC-xml-c14n-20010315#WithComments"
  | ⟨true, false⟩ => "http://www.w3.org/2001/10/xml-exc-c14n#"
  | ⟨true, true⟩ => "http://www.w3.org/2001/10/xml-exc-c14n#WithComments"

def all : List Method :=
  [⟨false, false⟩, ⟨false, true⟩, ⟨true, false⟩, ⟨true, true⟩]

def ofUri? (uri : String) : Option Method :=
  all.find? (fun method => method.uri = uri)

def default : Method := ⟨false, false⟩

theorem ofUri?_uri (method : Method) : ofUri? method.uri = some method := by
  obtain ⟨exclusive, comments⟩ := method
  cases exclusive <;> cases comments <;> decide

end Method

/-- A method together with the prefixes that are treated inclusively, as a list names them. -/
structure Form where
  method : Method
  listed : List String
  deriving DecidableEq, Repr

def listedPrefix (entry : String) : String :=
  if entry = "#default" then "" else entry

end SamlGate.Canonical
