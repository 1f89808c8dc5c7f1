/-! # Parts of a text

Containment, replacement, words and order of texts, character by character. Words are separated by
the white space of Unicode, together with the four separator characters of ASCII (`U+001C` to
`U+001F`). Order is by code point. -/
namespace SinkAudit.Text

/-- Whether `needle` stands at the start of `hay`. -/
def startsWithChars : List Char → List Char → Bool
  | [], _ => true
  | _ :: _, [] => false
  | n :: needle, c :: hay => n == c && startsWithChars needle hay

/-- Whether `needle` stands somewhere in `hay`. -/
def containsChars (needle : List Char) : List Char → Bool
  | [] => needle.isEmpty
  | c :: hay => startsWithChars needle (c :: hay) || containsChars needle hay

def startsWith (s pre : String) : Bool := startsWithChars pre.toList s.toList

def endsWith (s post : String) : Bool := startsWithChars post.toList.reverse s.toList.reverse

/-- Whether `s` holds `part`. -/
def contains (s part : String) : Bool := containsChars part.toList s.toList

/-- Every character `old` replaced by `new`. -/
def replaceChar (old new : Char) (s : String) : String :=
  String.ofList (s.toList.map fun c => if c == old then new else c)

/-- Whether the first text stands before the second or is the same. -/
def leChars : List Char → List Char → Bool
  | [], _ => true
  | _ :: _, [] => false
  | a :: as, b :: bs => a.toNat < b.toNat || (a == b && leChars as bs)

def le (s t : String) : Bool := leChars s.toList t.toList

/-- Texts in order of their code points. -/
def sort (xs : List String) : List String := xs.mergeSort le

/-- The entries without those that occurred before, in order of first occurrence. -/
def distinct (xs : List String) : List String :=
  xs.foldl (fun seen x => if seen.contains x then seen else seen ++ [x]) []

/-- The part before the first `sep`, the whole text where there is none. -/
def beforeFirst (sep : Char) (s : String) : String :=
  String.ofList (s.toList.takeWhile (· != sep))

/-- The part after the last `sep`, the whole text where there is none. -/
def afterLast (sep : Char) (s : String) : String :=
  String.ofList (s.toList.reverse.takeWhile (· != sep)).reverse

/-! ## White space -/

/-- White space that separates words. -/
def isBlank (c : Char) : Bool :=
  let n := c.toNat
  (9 ≤ n && n ≤ 13) || (0x1C ≤ n && n ≤ 0x20) || n == 0x85 || n == 0xA0 || n == 0x1680 ||
    (0x2000 ≤ n && n ≤ 0x200A) || n == 0x2028 || n == 0x2029 || n == 0x202F || n == 0x205F ||
    n == 0x3000

/-- The maximal runs of characters other than white space. -/
def wordsOf (cs : List Char) : List (List Char) :=
  (cs.splitOnP isBlank).filter (!·.isEmpty)

def words (s : String) : List String := (wordsOf s.toList).map String.ofList

/-- Drops from both ends the characters that `p` accepts. -/
def trimWith (p : Char → Bool) (cs : List Char) : List Char :=
  ((cs.dropWhile p).reverse.dropWhile p).reverse

/-- The text without white space at its ends. -/
def trim (s : String) : String := String.ofList (trimWith isBlank s.toList)

/-- The text without quote marks at its ends. -/
def trimQuotes (s : String) : String :=
  String.ofList (trimWith (fun c => "'\"".toList.contains c) s.toList)

end SinkAudit.Text
