import SinkAudit.Path.Glob
import SinkAudit.Tree.Source

/-! # Workspaces

The files of a folder, each with its tree if it can be parsed. Nothing is read outside of the
folder: paths that lead out of it lead nowhere, except to the folders around it. What stands outside
matters to what is written, and is left open. -/
namespace SinkAudit

structure SourceFile where
  /-- The path below the folder. -/
  path : Path
  bytes : Array UInt8
  tree : Option Tree := none

def SourceFile.source (f : SourceFile) : Source :=
  { tree := f.tree.getD { nodes := #[] }, bytes := f.bytes }

/-- What stands at a place, as far as writing is concerned. -/
inductive Spot where
  | vacant
  | file
  | folder
  /-- Whatever it is, nothing may be made or written there. -/
  | barred
  deriving DecidableEq, Repr

structure Workspace where
  /-- The absolute path of the folder, without double dots. -/
  root : Path
  files : List SourceFile := []
  /-- Folders below, those that files show apart. -/
  folders : List Path := []
  /-- What stands outside of the folder, by the names that lead there from the top. -/
  outside : List String → Spot := fun _ => .vacant

/-- What a path leads to. -/
inductive Entry where
  | file (f : SourceFile)
  | folder

namespace Workspace

def file? (w : Workspace) (relative : Path) : Option SourceFile :=
  w.files.find? fun f => f.path.parts == relative.parts

/-- Whether names below the root make a folder. -/
def isFolderBelow (w : Workspace) (parts : List String) : Bool :=
  parts.isEmpty || w.folders.any (fun p => parts.isPrefixOf p.parts) ||
    w.files.any fun f => parts.isPrefixOf f.path.parts && parts.length < f.path.parts.length

/-- What an absolute path without double dots leads to. -/
def entryAt? (w : Workspace) (p : Path) : Option Entry :=
  if p.parts.isPrefixOf w.root.parts then some .folder
  else
    match p.below? w.root with
    | none => none
    | some relative =>
      match w.file? relative with
      | some f => some (.file f)
      | none => if w.isFolderBelow relative.parts then some .folder else none

/-- Whether all names but the last of a path lead through folders. -/
def isReachable (w : Workspace) (p : Path) : Bool :=
  (List.range p.parts.length).all fun n =>
    match w.entryAt? { p with parts := p.parts.take n : Path }.resolve with
    | some .folder => true
    | _ => false

/-- What a path leads to; one that is not absolute starts at the root. -/
def entry? (w : Workspace) (p : Path) : Option Entry :=
  let p := w.root.join p
  if w.isReachable p then w.entryAt? p.resolve else none

def isFolder (w : Workspace) (p : Path) : Bool :=
  match w.entry? p with
  | some .folder => true
  | _ => false

/-- The files below a folder, by their paths from there. -/
def filesBelow (w : Workspace) (root : Path) : List SourceFile :=
  w.files.filterMap fun f =>
    ((w.root.join f.path).below? root).map fun path => { f with path }

/-- The endings of the files that are scanned. -/
def scannedExtensions : List String :=
  [".js", ".mjs", ".cjs", ".jsx", ".ts", ".mts", ".cts", ".tsx"]

/-- The files below a folder that have one of the endings and are not ignored, in order. -/
def sourceFiles (w : Workspace) (root : Path) (extensions ignore : List String) :
    List SourceFile :=
  ((w.filesBelow root).filter fun f =>
    extensions.contains f.path.extension && !f.path.isIgnored ignore).mergeSort
      fun f g => f.path.le g.path

end Workspace

end SinkAudit
