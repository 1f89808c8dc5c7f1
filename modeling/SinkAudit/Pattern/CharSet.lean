import SinkAudit.Text.Find
import SinkAudit.Text.Case

/-! # Sets of characters in search patterns

A set lists characters by code, ranges of codes and categories. It may be negated, and it may
compare letters without regard to case. -/
namespace SinkAudit

inductive Category where
  | digit
  | space
  | word
  deriving DecidableEq, Repr

/-- How letters are compared: as they are, or by their lower-case partner. -/
inductive Folding where
  | exact
  | ascii
  | unicode
  deriving DecidableEq, Repr

inductive SetItem where
  | char (code : Nat)
  | range (first last : Nat)
  | category (kind : Category) (negated ascii : Bool)
  deriving DecidableEq, Repr

structure CharSet where
  items : List SetItem
  negated : Bool := false
  folding : Folding := .exact
  deriving DecidableEq, Repr

/-- Whether a character belongs to a category, of ASCII alone or of Unicode. -/
def Category.holds (ascii : Bool) (c : Char) : Category → Bool
  | .digit => if ascii then c.isDigit else Text.isDecimal c
  | .space => if ascii then c.toNat == 32 || (9 ≤ c.toNat && c.toNat ≤ 13) else Text.isBlank c
  | .word => (if ascii then c.isAlphanum else Text.isAlphanumeric c) || c == '_'

/-- The partner of a code point; a code that is no character is its own. -/
def foldCode (n : Nat) : Nat := if n.isValidChar then (Text.fold (Char.ofNat n)).toNat else n

def foldAsciiCode (n : Nat) : Nat := if 65 ≤ n && n ≤ 90 then n + 32 else n

def Folding.apply : Folding → Char → Char
  | .exact, c => c
  | .ascii, c => c.toLower
  | .unicode, c => Text.fold c

def SetItem.accepts (c : Char) : SetItem → Bool
  | .char code => c.toNat == code
  | .range first last => first ≤ c.toNat && c.toNat ≤ last
  | .category kind negated ascii => kind.holds ascii c != negated

/-- Membership for sets of ASCII letters without regard to case; `c` is in lower case. -/
def SetItem.acceptsAscii (c : Char) : SetItem → Bool
  | .char code => c.toNat == foldAsciiCode code
  | .range first last =>
    (first ≤ c.toNat && c.toNat ≤ last) ||
      (c.isLower && first ≤ c.toUpper.toNat && c.toUpper.toNat ≤ last)
  | item => item.accepts c

/-- Membership without regard to case; `c` is in lower case. A character beyond the basic plane is
compared as it is written. -/
def SetItem.acceptsFolded (c : Char) : SetItem → Bool
  | .char code =>
    if 0x10000 ≤ code then c.toNat == code
    else
      let l := foldCode code
      c.toNat == l || (Text.variants l).contains c.toNat
  | .range first last =>
    (c.toNat :: Text.variants c.toNat).any fun l =>
      (Text.foldSources l).any fun n => first ≤ n && n ≤ last
  | item => item.accepts c

def CharSet.hits (s : CharSet) (c : Char) : Bool :=
  match s.folding with
  | .exact => s.items.any (·.accepts c)
  | .ascii => s.items.any (·.acceptsAscii c.toLower)
  | .unicode => s.items.any (·.acceptsFolded (Text.fold c))

/-- Whether the set holds a character. -/
def CharSet.accepts (s : CharSet) (c : Char) : Bool := s.hits c != s.negated

def isCasedCode (n : Nat) : Bool := n.isValidChar && Text.isCased (Char.ofNat n)

def isCasedAsciiCode (n : Nat) : Bool := foldAsciiCode n != n || (97 ≤ n && n ≤ 122)

/-- Whether case makes a difference to an item. -/
def SetItem.isCased (ascii : Bool) : SetItem → Bool
  | .char code => if ascii then isCasedAsciiCode code else 0x10000 ≤ code || isCasedCode code
  | .range first last =>
    (List.range' first (last + 1 - first)).any (if ascii then isCasedAsciiCode else isCasedCode)
  | .category .. => false

end SinkAudit
