import SinkAudit.Project.Workspace

/-! # Writing files

Before a file is written the folders on the way to it are made, also those that double dots lead
out of again. What has been made stands in the way of what is written later: where a folder was
made, no file can be written. -/
namespace SinkAudit

/-- Why a file cannot be written. -/
inductive WriteFault where
  /-- A file stands where a folder is to be made. -/
  | folderIsFile
  /-- The way to its folder leads through a file. -/
  | belowFile
  /-- It is a folder. -/
  | isFolder
  /-- Access is refused. -/
  | barred
  deriving DecidableEq, Repr

def WriteFault.message : WriteFault → String
  | .folderIsFile => "The folder of a file is a file"
  | .belowFile => "The folder of a file lies below a file"
  | .isFolder => "A file to be written is a folder"
  | .barred => "A file may not be written"

structure Disk where
  /-- The folder in which paths start that are not absolute, by the names that lead there. -/
  base : List String
  /-- What stands at a place, by the names that lead there from the top. -/
  spot : List String → Spot

namespace Disk

/-- Makes something stand at a place. -/
def put (d : Disk) (place : List String) (x : Spot) : Disk :=
  { d with spot := fun names => if names = place then x else d.spot names }

/-- The names of a path from the top. -/
def route (d : Disk) (p : Path) : List String :=
  if p.isAbsolute then p.parts else d.base ++ p.parts

/-- Where a path leads. -/
def place (d : Disk) (p : Path) : List String := Path.resolveParts [] (d.route p)

/-- Goes along names from a folder and makes the folders that are missing. A file in the way is
taken for one that stands where a folder is to be made, if it comes last or a folder was made. -/
def enter (d : Disk) (here : List String) (made : Bool) :
    List String → Except WriteFault (Disk × List String)
  | [] => .ok (d, here)
  | name :: names =>
    if name == ".." then d.enter here.dropLast made names
    else
      match d.spot (here ++ [name]) with
      | .folder => d.enter (here ++ [name]) made names
      | .vacant => (d.put (here ++ [name]) .folder).enter (here ++ [name]) true names
      | .file => .error (if made || names.isEmpty then .folderIsFile else .belowFile)
      | .barred => .error .barred

/-- Makes the folder of a file, and says where it is. -/
def makeFolder (d : Disk) (p : Path) : Except WriteFault (Disk × List String) :=
  d.enter [] false (d.route p).dropLast

/-- Writes the file with a path, given its folder. -/
def write (d : Disk) (folder : List String) (p : Path) : Except WriteFault Disk :=
  match (d.route p).getLast? with
  | none => .error .isFolder
  | some name =>
    if name == ".." then .error .isFolder
    else
      match d.spot (folder ++ [name]) with
      | .folder => .error .isFolder
      | .barred => .error .barred
      | _ => .ok (d.put (folder ++ [name]) .file)

/-- Makes the folder of a file and writes the file. -/
def save (d : Disk) (p : Path) : Except WriteFault Disk := do
  let (d, folder) ← d.makeFolder p
  d.write folder p

end Disk

/-- What stands where before anything is written. -/
def Workspace.disk (w : Workspace) : Disk where
  base := w.root.parts
  spot names :=
    match w.entryAt? { w.root with parts := names } with
    | some .folder => .folder
    | some (.file _) => .file
    | none => if w.root.parts.isPrefixOf names then .vacant else w.outside names

end SinkAudit
