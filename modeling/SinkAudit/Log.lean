/-! # Messages on the side

What a run has to say besides its result. A failing step keeps what was said before it. -/
namespace SinkAudit

namespace Log

inductive Level where
  | debug
  | warning
  deriving DecidableEq, Repr

/-- The part of the program that speaks. -/
inductive Area where
  | config
  | scanner
  | engine
  | taint
  deriving DecidableEq, Repr

structure Entry where
  level : Level
  area : Area
  message : String
  deriving DecidableEq, Repr

def Level.name : Level → String
  | .debug => "DEBUG"
  | .warning => "WARNING"

def Area.name : Area → String
  | .config => "sinkscan.config"
  | .scanner => "sinkscan.scanner"
  | .engine => "sinkscan.engine"
  | .taint => "sinkscan.taint"

namespace Entry

/-- The line that is printed. -/
def text (e : Entry) : String := e.level.name ++ " " ++ e.area.name ++ ": " ++ e.message

def isWarning (e : Entry) : Bool := e.level == .warning

end Entry

end Log

/-- A value together with what was said on the way to it. -/
structure Logged (α : Type) where
  value : α
  log : List Log.Entry := []
  deriving Repr

namespace Logged

instance : Monad Logged where
  pure a := { value := a }
  bind x f := { value := (f x.value).value, log := x.log ++ (f x.value).log }

def say (level : Log.Level) (area : Log.Area) (message : String) : Logged Unit :=
  { value := (), log := [{ level, area, message }] }

def warn (area : Log.Area) (message : String) : Logged Unit := say .warning area message

def debug (area : Log.Area) (message : String) : Logged Unit := say .debug area message

/-- The warnings, in order. -/
def warnings {α : Type} (x : Logged α) : List String :=
  (x.log.filter (·.isWarning)).map (·.message)

end Logged

end SinkAudit
