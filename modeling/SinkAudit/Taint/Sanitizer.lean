import SinkAudit.Text.Case
import SinkAudit.Tree.Source

/-! # Sanitizers

A call is a sanitizer by its name alone: it names a trusted library, or its verb says that it
cleans or checks its argument. -/
namespace SinkAudit

/-- Parts of names that say so, wherever they stand. -/
def sanitizerFragments : List String := ["sanitize", "purify"]

/-- Starts of names that say so. -/
def sanitizerStarts : List String := ["escape", "validate"]

def isSanitizerName (name : String) : Bool :=
  sanitizerFragments.any (Text.contains (Text.lower name)) ||
    sanitizerStarts.any (Text.startsWith (Text.lower name))

/-- The letters and digits of a name, in lower case. -/
def plainName (name : String) : String :=
  String.ofList ((Text.lower name).toList.filter fun c => c.isLower || c.isDigit)

/-- Whether a call's name holds the name of a trusted library. -/
def CallTarget.isTrusted (target : CallTarget) (trusted : List String) : Bool :=
  let names := (target.method.toList ++ (target.object.filter (!·.isEmpty)).toList).map plainName
  trusted.any fun library =>
    !(plainName library).isEmpty && names.any (Text.contains · (plainName library))

namespace Source

def isSanitizerCall (s : Source) (trusted : List String) (i : Nat) : Bool :=
  let i := s.tree.unwrap i
  let target := s.callTarget i
  s.tree.kind i == .callExpression && target.method.any fun method =>
    !method.isEmpty && (target.isTrusted trusted || isSanitizerName method)

/-- The text of the sanitizer call around a value and below the sink, nearest first. -/
def findSanitizer (s : Source) (stop : Option Tree.Key) (trusted : List String) (i : Nat) :
    Option String :=
  if stop == some (s.tree.key i) then none
  else if s.isSanitizerCall trusted i then some (Text.trim (s.text i))
  else
    match _h : s.tree.parent? i with
    | some j => s.findSanitizer stop trusted j
    | none => none
termination_by i
decreasing_by exact Tree.parent?_lt _h

end Source

end SinkAudit
