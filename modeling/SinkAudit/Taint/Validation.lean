import SinkAudit.Pattern.Reader
import SinkAudit.Pattern.Matcher
import SinkAudit.Tree.Source

/-! # Validations

A statement looks like a validation if its text holds one of a few calls or comparisons. -/
namespace SinkAudit

/-- A form of statement that looks like a validation. -/
structure Signature where
  name : String
  pattern : Pattern
  deriving DecidableEq, Repr

open Pattern in
/-- A call of a method. -/
def Signature.method (name : String) : Signature :=
  { name, pattern := sequence [exactly ".", exactly name, blanks, exactly "("] }

open Pattern in
def signatures : List Signature :=
  [.method "includes",
   .method "has",
   { name := "validate"
     pattern := sequence [edge, anyCase "validate", wordChars, blanks, exactly "("] },
   { name := "isValid"
     pattern := sequence [edge, exactly "isValid", wordChars, blanks, exactly "("] },
   { name := "hostname"
     pattern := sequence [edge, exactly "hostname", blanks,
       choice (["===", "!==", "==", "!="].map exactly)] },
   .method "startsWith",
   .method "endsWith",
   .method "match",
   .method "test"]

/-- The first form that a text has. -/
def signatureIn? (text : String) : Option String :=
  (signatures.find? (·.pattern.search text)).map (·.name)

/-- The form of the first statement that looks like a validation. -/
def Source.findValidation (s : Source) (statements : List Nat) : Option String :=
  statements.findSome? fun i => signatureIn? (s.text i)

end SinkAudit
