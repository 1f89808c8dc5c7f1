import SinkAudit.Json.Basic
import SinkAudit.Project.Workspace

/-! # Snapshots

A workspace written as JSON: the root, and the files and folders below it, each file with its bytes
and, if it was parsed, with its tree. Bytes are given as text or in hexadecimal digits. -/
namespace SinkAudit

/-- A node in a row: its kind, where it starts and stops, its parent or minus one, one if it is more
than a token, and its role. -/
def Node.ofJson? : Json → Option Node
  | .arr [.str kind, .int (.ofNat start), .int (.ofNat stop), .int parent, .int named, .str role] =>
    some
      { kind := .ofName kind
        start, stop
        parent := if parent < 0 then none else some parent.toNat
        named := named == 1
        field := Field.ofName? role }
  | _ => none

/-- A tree as a list of rows, each node before its children. -/
def Tree.ofJson? : Json → Option Tree
  | .arr rows => (rows.mapM Node.ofJson?).map fun nodes => { nodes := nodes.toArray }
  | _ => none

/-- The bytes that pairs of hexadecimal digits stand for. -/
def hexBytes : List Char → List UInt8
  | a :: b :: rest => (Text.hexValue [a, b]).toUInt8 :: hexBytes rest
  | _ => []

/-- The bytes of a file, none where it has none. -/
def fileBytes (v : Json) : Array UInt8 :=
  match v.get? "hex", v.get? "source" with
  | some (.str digits), _ => (hexBytes digits.toList).toArray
  | _, some (.str text) => text.toUTF8.data
  | _, _ => #[]

/-- The source of a file; one that was not parsed has an empty tree. -/
def Source.ofJson (v : Json) : Source :=
  { tree := ((v.get? "tree").bind Tree.ofJson?).getD { nodes := #[] }, bytes := fileBytes v }

namespace Workspace

/-- The path of an entry of a snapshot. -/
def entryPath? (v : Json) : Option Path :=
  match v.get? "path" with
  | some (.str path) => some (.ofText path)
  | _ => none

/-- Whether an entry of a snapshot is a folder. -/
def isFolderEntry (v : Json) : Bool := (v.get? "dir").any (·.truthy)

def fileOf? (v : Json) : Option SourceFile :=
  if isFolderEntry v then none
  else (entryPath? v).map fun path =>
    { path, bytes := fileBytes v, tree := (v.get? "tree").bind Tree.ofJson? }

def folderOf? (v : Json) : Option Path := if isFolderEntry v then entryPath? v else none

/-- The files of which no later one has the same path. -/
def lastFiles : List SourceFile → List SourceFile
  | [] => []
  | f :: fs => if fs.any (·.path == f.path) then lastFiles fs else f :: lastFiles fs

/-- The workspace at a root with the entries of a snapshot; a later file replaces an earlier one. -/
def ofEntries (root : Path) (entries : List Json) : Workspace :=
  { root
    files := lastFiles (entries.filterMap fileOf?)
    folders := entries.filterMap folderOf? }

/-- The workspace that a snapshot shows. -/
def ofJson? (v : Json) : Option Workspace :=
  match v.get? "root", v.get? "files" with
  | some (.str root), some (.arr entries) => some (ofEntries (Path.ofText root).resolve entries)
  | _, _ => none

end Workspace

end SinkAudit
