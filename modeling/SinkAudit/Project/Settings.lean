import SinkAudit.Config
import SinkAudit.Json.Reader
import SinkAudit.Project.Workspace

/-! # The configuration of a project

The project's own file, then a file that the user names, then what the user asks for. -/
namespace SinkAudit

namespace Config

/-- The name of a project's configuration. -/
def fileName : String := ".sinkscanrc.json"

end Config

namespace Workspace

/-- Reads a layer of configuration. -/
def readLayer (path : Path) (entry : Entry) : Attempt Members := do
  Logged.debug .config ("Loading config from " ++ path.text)
  match entry with
  | .folder => throw (.folder path)
  | .file f =>
    let text ← Attempt.ofExcept .notText (Text.decodeStrict f.bytes.toList)
    match Json.parse text with
    | none => throw (if Json.hasHalfPair text then .halfPair path else .invalidJson path)
    | some (.obj ms) => return ms
    | some _ => throw (.notAnObject path)

/-- The members of the project's own configuration. -/
def ownLayer (w : Workspace) (root : Path) : Attempt Members :=
  let path := root.join (.ofText Config.fileName)
  match w.entry? path with
  | some entry => readLayer path entry
  | none => return []

/-- The members of the configuration that the user names. -/
def namedLayer (w : Workspace) (root : Path) : Option Path → Attempt Members
  | none => return []
  | some path => do
    let path := root.join path
    match w.entry? path with
    | some entry => readLayer path entry
    | none =>
      Logged.warn .config ("Config file " ++ path.text ++ " does not exist")
      return []

/-- Loads the configuration of the project in a folder. -/
def loadConfig (w : Workspace) (folder : Path) (named : Option Path) (overrides : Members) :
    Attempt Config := do
  let root := (w.root.join folder).resolve
  let own ← w.ownLayer root
  let other ← w.namedLayer root named
  Config.ofMembers root (((Config.defaults.overlay own).overlay other).overlay overrides)

end Workspace

end SinkAudit
