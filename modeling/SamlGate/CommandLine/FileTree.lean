import SamlGate.CommandLine.Command

/-!
Files and directories as a tree, and the paths through it.

A path is a list of steps divided by slashes. It starts at the root if it begins with a slash, and at the
working directory if not. An empty step and a dot stay, two dots go up, and any other step goes to the
entry of that name. All but the last place on the way must be directories, also the last one if a slash
follows it. So a tree says what every path leads to, and stands in where there is no disk.
-/

namespace SamlGate

inductive FileTree where
  | file (content : Octets)
  | directory (entries : List (String × FileTree))

namespace FileTree

def longestPath : Nat := 4095

def longestName : Nat := 255

def steps (path : String) : List String :=
  (path.toList.splitOn '/').map String.ofList

/-- A place in a tree, with the directories above it from the inside out. -/
structure Place where
  above : List FileTree
  here : FileTree

/-- Goes one step on. Above the root is the root. -/
def Place.step (place : Place) (name : String) : Except FileFault Place :=
  match place.here with
  | file _ => .error .notDirectory
  | directory entries =>
    if name = "" ∨ name = "." then .ok place
    else if name = ".." then
      match place.above with
      | [] => .ok place
      | parent :: above => .ok ⟨above, parent⟩
    else if longestName < name.utf8ByteSize then .error .nameTooLong
    else
      match entries.lookup name with
      | some entry => .ok ⟨place.here :: place.above, entry⟩
      | none => .error .absent

def Place.follow (place : Place) (names : List String) : Except FileFault Place :=
  names.foldlM Place.step place

def Place.content (place : Place) : Except FileFault Octets :=
  match place.here with
  | file content => .ok content
  | directory _ => .error .isDirectory

def read (root : FileTree) (working path : String) : Except FileFault Octets := do
  if path = "" then .error .absent
  else if longestPath < path.utf8ByteSize then .error .nameTooLong
  else
    let origin : Place := ⟨[], root⟩
    let start ← if path.toList.head? = some '/' then .ok origin else origin.follow (steps working)
    (← start.follow (steps path)).content

def files (root : FileTree) (working : String) : Files := fun path =>
  match root.read working path with
  | .error fault => .error (.faulty path fault)
  | .ok content => (Octets.text? content).elim (.error (.notText path)) .ok

end FileTree

end SamlGate
