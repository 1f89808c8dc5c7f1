import SinkAudit.Pattern.Basic
import SinkAudit.Text.Ranges

/-! # The written form of patterns

A pattern is written in the usual notation of regular expressions: escapes and classes, greedy,
lazy and possessive repetition, named and numbered groups, references, assertions, atomic and
conditional groups, comments and inline flags. Flags for a whole pattern stand at its start; an
assertion about what stands before has matches of one length only. -/
namespace SinkAudit.Pattern

/-- Why a text is not a pattern. -/
inductive Fault where
  | malformed
  /-- A repetition count of `2 ^ 32 - 1` or more. -/
  | countTooLarge
  /-- The whole pattern is asked to be both ASCII and Unicode. -/
  | conflictingFlags
  deriving DecidableEq, Repr

/-- A character of the notation; a backslash belongs to the character after it. -/
inductive Token where
  | plain (c : Char)
  | escaped (c : Char)
  deriving DecidableEq, Repr

/-- The tokens of a text, none where it ends in a lone backslash. -/
def tokens : List Char → Option (List Token)
  | [] => some []
  | ['\\'] => none
  | '\\' :: c :: rest => (tokens rest).map (.escaped c :: ·)
  | c :: rest => (tokens rest).map (.plain c :: ·)

structure Flags where
  ignoreCase : Bool := false
  multiLine : Bool := false
  dotAll : Bool := false
  verbose : Bool := false
  ascii : Bool := false
  unicode : Bool := false
  /-- Forbids repetition. -/
  template : Bool := false
  deriving DecidableEq, Repr

def Flags.union (a b : Flags) : Flags where
  ignoreCase := a.ignoreCase || b.ignoreCase
  multiLine := a.multiLine || b.multiLine
  dotAll := a.dotAll || b.dotAll
  verbose := a.verbose || b.verbose
  ascii := a.ascii || b.ascii
  unicode := a.unicode || b.unicode
  template := a.template || b.template

def Flags.common (a b : Flags) : Bool :=
  (a.ignoreCase && b.ignoreCase) || (a.multiLine && b.multiLine) || (a.dotAll && b.dotAll) ||
    (a.verbose && b.verbose)

/-- The flags inside a group that turns some on and some off. -/
def Flags.within (outer on off : Flags) : Flags where
  ignoreCase := (outer.ignoreCase || on.ignoreCase) && !off.ignoreCase
  multiLine := (outer.multiLine || on.multiLine) && !off.multiLine
  dotAll := (outer.dotAll || on.dotAll) && !off.dotAll
  verbose := (outer.verbose || on.verbose) && !off.verbose
  ascii := if on.ascii || on.unicode then on.ascii else outer.ascii
  unicode := if on.ascii || on.unicode then on.unicode else outer.unicode
  template := outer.template

def flagOf? (c : Char) : Option Flags :=
  if c == 'i' then some { ignoreCase := true }
  else if c == 'm' then some { multiLine := true }
  else if c == 's' then some { dotAll := true }
  else if c == 'x' then some { verbose := true }
  else if c == 'a' then some { ascii := true }
  else if c == 'u' then some { unicode := true }
  else if c == 't' then some { template := true }
  else none

/-- The least and the greatest length of a match, capped at `maxWidth`. -/
structure Width where
  least : Nat
  most : Nat
  deriving DecidableEq, Repr

def maxWidth : Nat := 0x10000000000000000

/-- The greatest repetition count and one more than the longest look back. -/
def countLimit : Nat := 0xFFFFFFFF

/-- The lengths of the matches of a pattern, given those of the groups before it. -/
def widthOf (groups : List (Nat × Width)) : Pattern → Width
  | .empty => ⟨0, 0⟩
  | .one _ => ⟨1, 1⟩
  | .seq a b =>
    let a := widthOf groups a
    let b := widthOf groups b
    ⟨min (a.least + b.least) maxWidth, min (a.most + b.most) maxWidth⟩
  | .alt a b =>
    let a := widthOf groups a
    let b := widthOf groups b
    ⟨min a.least b.least, max a.most b.most⟩
  | .rep least most _ body =>
    let w := widthOf groups body
    let high := match most with
      | some n => w.most * n
      | none => if w.most == 0 then 0 else maxWidth
    ⟨min (w.least * least) maxWidth, min high maxWidth⟩
  | .group _ body => widthOf groups body
  | .same index _ => ((groups.find? (·.1 == index)).map (·.2)).getD ⟨0, 0⟩
  | .atomic body => widthOf groups body
  | .ahead .. => ⟨0, 0⟩
  | .behind .. => ⟨0, 0⟩
  | .ifGroup _ yes no =>
    let yes := widthOf groups yes
    let no := widthOf groups no
    ⟨min yes.least no.least, max yes.most no.most⟩
  | .anchor _ => ⟨0, 0⟩

/-- What reading a pattern keeps track of. -/
structure Reading where
  rest : List Token
  flags : Flags
  /-- The index of the next group. -/
  nextGroup : Nat := 1
  names : List (String × Nat) := []
  /-- The groups whose end has been read. -/
  closed : List (Nat × Width) := []
  /-- Inside an assertion about what stands before: the index that groups had at its start. -/
  behindFrom : Option Nat := none
  /-- Groups that conditions ask for by number. -/
  asked : List Nat := []
  /-- Something that is well formed but cannot be matched has been read. -/
  unmatchable : Bool := false

abbrev Reader := StateT Reading (Except Fault)

def malformed {α : Type} : Reader α := throw .malformed

/-- Refuses the pattern once all of it has been read. -/
def refuseLater : Reader Unit := modify fun s => { s with unmatchable := true }

def peek : Reader (Option Token) := return (← get).rest.head?

def next : Reader (Option Token) := do
  let s ← get
  set { s with rest := s.rest.drop 1 }
  return s.rest.head?

/-- Reads a given character where it stands next. -/
def accept (c : Char) : Reader Bool := do
  let s ← get
  if s.rest.head? == some (.plain c) then
    set { s with rest := s.rest.drop 1 }
    return true
  else return false

def expect (c : Char) : Reader Unit := do
  unless ← accept c do malformed

def plain? (p : Char → Bool) : Token → Option Char
  | .plain c => if p c then some c else none
  | .escaped _ => none

/-- Reads at most `n` characters that `p` accepts. -/
def readWhile (p : Char → Bool) : Nat → Reader (List Char)
  | 0 => return []
  | n + 1 => do
    match (← peek).bind (plain? p) with
    | some c =>
      let _ ← next
      return c :: (← readWhile p n)
    | none => return []

def tokenChars : Token → List Char
  | .plain c => [c]
  | .escaped c => ['\\', c]

/-- Reads up to a closing character; what stands before it must not be empty. -/
def readUntil (close : Char) : Reader String := do
  let s ← get
  let body := s.rest.takeWhile (· != .plain close)
  if body.isEmpty || body.length == s.rest.length then malformed
  else
    set { s with rest := s.rest.drop (body.length + 1) }
    return String.ofList (body.flatMap tokenChars)

def isOctal (c : Char) : Bool := '0' ≤ c && c ≤ '7'

def isHex (c : Char) : Bool := (Text.hexDigit? c).isSome

def octalValue (cs : List Char) : Nat := cs.foldl (fun n c => 8 * n + (c.toNat - 48)) 0

def decimalValue (cs : List Char) : Nat := cs.foldl (fun n c => 10 * n + (c.toNat - 48)) 0

/-- A name: letters, digits and underscores, no digit first. -/
def isName (s : String) : Bool :=
  match s.toList with
  | [] => false
  | c :: cs =>
    let word := Category.word.holds false
    word c && !Text.isDecimal c && cs.all word

/-- A literal character under the flags in force. -/
def literal (flags : Flags) (code : Nat) (negated : Bool := false) : Pattern :=
  if !flags.ignoreCase then .one { items := [.char code], negated }
  else if flags.ascii then
    if isCasedAsciiCode code then
      .one { items := [.char (foldAsciiCode code)], negated, folding := .ascii }
    else .one { items := [.char code], negated }
  else if isCasedCode code then
    .one { items := [.char (foldCode code)], negated, folding := .unicode }
  else .one { items := [.char code], negated }

/-- A set of characters under the flags in force. -/
def setOf (flags : Flags) (items : List SetItem) (negated : Bool) : Pattern :=
  match items with
  | [.char code] => literal flags code negated
  | _ =>
    if flags.ignoreCase && items.any (·.isCased flags.ascii) then
      .one { items, negated, folding := if flags.ascii then .ascii else .unicode }
    else .one { items, negated }

/-- The category that a letter after a backslash stands for. -/
def categoryOf? (ascii : Bool) (c : Char) : Option SetItem :=
  if c == 'd' then some (.category .digit false ascii)
  else if c == 'D' then some (.category .digit true ascii)
  else if c == 's' then some (.category .space false ascii)
  else if c == 'S' then some (.category .space true ascii)
  else if c == 'w' then some (.category .word false ascii)
  else if c == 'W' then some (.category .word true ascii)
  else none

/-- The control character that a letter after a backslash stands for. -/
def controlOf? (c : Char) : Option Nat :=
  if c == 'a' then some 7
  else if c == 'b' then some 8
  else if c == 'f' then some 12
  else if c == 'n' then some 10
  else if c == 'r' then some 13
  else if c == 't' then some 9
  else if c == 'v' then some 11
  else if c == '\\' then some 92
  else none

/-- The code written by exactly `n` hexadecimal digits. -/
def readCode (n : Nat) : Reader Nat := do
  let digits ← readWhile isHex n
  if digits.length == n then return Text.hexValue digits else malformed

/-- The code of an escape that means the same inside and outside of classes, if it is one. -/
def readCodeEscape? (c : Char) : Reader (Option Nat) := do
  if c == 'x' then return some (← readCode 2)
  else if c == 'u' then return some (← readCode 4)
  else if c == 'U' then
    let code ← readCode 8
    if code < 0x110000 then return some code else malformed
  else return none

/-- An escape inside a class. -/
def readClassEscape (flags : Flags) (c : Char) : Reader SetItem := do
  match controlOf? c with
  | some code => return .char code
  | none =>
    match categoryOf? flags.ascii c with
    | some item => return item
    | none =>
      match ← readCodeEscape? c with
      | some code => return .char code
      | none =>
        if isOctal c then
          let more ← readWhile isOctal 2
          let code := octalValue (c :: more)
          if code ≤ 255 then return .char code else malformed
        else if c.isAlphanum then malformed
        else return .char c.toNat

def readClassItem (flags : Flags) : Token → Reader SetItem
  | .plain c => return .char c.toNat
  | .escaped c => readClassEscape flags c

/-- The items of a class up to the closing bracket; a bracket that comes first is an item. -/
def readClassItems (flags : Flags) : Nat → List SetItem → Reader (List SetItem)
  | 0, _ => malformed
  | fuel + 1, items => do
    match ← next with
    | none => malformed
    | some token =>
      if token == .plain ']' && !items.isEmpty then return items
      else
        let item ← readClassItem flags token
        if ← accept '-' then
          match ← next with
          | none => malformed
          | some (.plain ']') => return items ++ [item, .char 45]
          | some token =>
            match item, ← readClassItem flags token with
            | .char first, .char last =>
              if last < first then malformed
              else readClassItems flags fuel (items ++ [.range first last])
            | _, _ => malformed
        else readClassItems flags fuel (items ++ [item])

def readClass (flags : Flags) : Reader Pattern := do
  let negated ← accept '^'
  let items ← readClassItems flags ((← get).rest.length + 1) []
  return setOf flags (items.foldl (fun seen i => if seen.contains i then seen else seen ++ [i]) [])
    negated

/-- Whether a group's end has been read. -/
def isClosed (s : Reading) (index : Nat) : Bool := s.closed.any (·.1 == index)

/-- Refuses a reference, from inside an assertion about what stands before, to an open group or to
one that the assertion itself contains. -/
def checkBehind (index : Nat) : Reader Unit := do
  let s ← get
  match s.behindFrom with
  | none => return
  | some start => if !isClosed s index || start ≤ index then malformed

def reference (flags : Flags) (index : Nat) : Reader Pattern := do
  if !isClosed (← get) index then malformed
  else
    checkBehind index
    return .same index
      (if !flags.ignoreCase then .exact else if flags.ascii then .ascii else .unicode)

/-- An escape that starts with a digit other than zero: three octal digits are a code, anything
else is a reference. -/
def readNumberEscape (flags : Flags) (c : Char) : Reader Pattern := do
  match (← peek).bind (plain? Char.isDigit) with
  | none => reference flags (decimalValue [c])
  | some d =>
    let _ ← next
    match (← peek).bind (plain? isOctal) with
    | some e =>
      if isOctal c && isOctal d then
        let _ ← next
        let code := octalValue [c, d, e]
        if code ≤ 255 then return literal flags code else malformed
      else reference flags (decimalValue [c, d])
    | none => reference flags (decimalValue [c, d])

/-- What the last item of a sequence is, as far as repetition is concerned. -/
inductive ItemKind where
  | place
  | repetition
  | other
  deriving DecidableEq

structure Item where
  pattern : Pattern
  kind : ItemKind := .other

def anchorOf? (flags : Flags) (c : Char) : Option Anchor :=
  if c == 'A' then some .textStart
  else if c == 'b' then some (.wordBoundary flags.ascii)
  else if c == 'B' then some (.notWordBoundary flags.ascii)
  else if c == 'Z' then some .textEnd
  else none

/-- An escape outside of classes. -/
def readEscape (flags : Flags) (c : Char) : Reader Item := do
  match anchorOf? flags c with
  | some place => return ⟨.anchor place, .place⟩
  | none =>
    match categoryOf? flags.ascii c with
    | some item => return { pattern := .one { items := [item] } }
    | none =>
      match controlOf? c with
      | some code => return { pattern := literal flags code }
      | none =>
        match ← readCodeEscape? c with
        | some code => return { pattern := literal flags code }
        | none =>
          if c == '0' then
            return { pattern := literal flags (octalValue (← readWhile isOctal 2)) }
          else if c.isDigit then return { pattern := ← readNumberEscape flags c }
          else if c.isAlpha then malformed
          else return { pattern := literal flags c.toNat }

/-- The counts between braces, none where the brace stands for itself. -/
def readCounts : Reader (Option (List Char × List Char)) := do
  let s ← get
  if s.rest.head? == some (.plain '\x7d') then return none
  else
    let low ← readWhile Char.isDigit s.rest.length
    let high ← if ← accept ',' then readWhile Char.isDigit s.rest.length else pure low
    if ← accept '\x7d' then return some (low, high)
    else
      set s
      return none

/-- The bounds of a repetition, none where the character stands for itself. -/
def readBounds (c : Char) : Reader (Option (Nat × Option Nat)) := do
  if c == '?' then return some (0, some 1)
  else if c == '*' then return some (0, none)
  else if c == '+' then return some (1, none)
  else
    match ← readCounts with
    | none => return none
    | some (low, high) =>
      let least := decimalValue low
      if countLimit ≤ least then throw .countTooLarge
      else if high.isEmpty then return some (least, none)
      else
        let most := decimalValue high
        if countLimit ≤ most then throw .countTooLarge
        else if most < least then malformed
        else return some (least, some most)

def readGreed : Reader Greed := do
  if ← accept '?' then return .lazy
  else if ← accept '+' then return .possessive
  else return .greedy

/-- Repeats the last of the items. -/
def repeatLast (flags : Flags) (least : Nat) (most : Option Nat) :
    List Item → Reader (List Item)
  | [] => malformed
  | item :: items => do
    if item.kind != .other then malformed
    else
      if flags.template then refuseLater
      let greed ← readGreed
      return ⟨.rep least most greed item.pattern, .repetition⟩ :: items

/-- The flags turned on, up to one of `)`, `-` and `:`, which is also returned. -/
def readFlagsOn (on : Flags) : Nat → Char → Reader (Flags × Char)
  | 0, _ => malformed
  | fuel + 1, c => do
    match flagOf? c with
    | none => malformed
    | some flag =>
      let on := on.union flag
      if on.ascii && on.unicode then malformed
      else
        match ← next with
        | some (.plain d) =>
          if d == ')' || d == '-' || d == ':' then return (on, d) else readFlagsOn on fuel d
        | _ => malformed

/-- The flags turned off, up to a colon. -/
def readFlagsOff (off : Flags) : Nat → Reader Flags
  | 0 => malformed
  | fuel + 1 => do
    match ← next with
    | some (.plain c) =>
      match flagOf? c with
      | none => malformed
      | some flag =>
        if flag.ascii || flag.unicode || flag.template then malformed
        else
          let off := off.union flag
          if ← accept ':' then return off else readFlagsOff off fuel
    | _ => malformed

/-- The flags of a group: those for the whole pattern, or those turned on and off inside. -/
def readFlags (c : Char) : Reader (Flags ⊕ Flags × Flags) := do
  let fuel := (← get).rest.length + 1
  let (on, stop) ← if c == '-' then pure ({}, '-') else readFlagsOn {} fuel c
  if stop == ')' then return .inl on
  else if on.template then malformed
  else
    let off ← if stop == '-' then readFlagsOff {} fuel else pure {}
    if on.common off then malformed else return .inr (on, off)

def openGroup (name : Option String) : Reader Nat := do
  let s ← get
  let names ← match name with
    | none => pure s.names
    | some name =>
      if s.names.any (·.1 == name) then malformed else pure (s.names ++ [(name, s.nextGroup)])
  set { s with nextGroup := s.nextGroup + 1, names }
  return s.nextGroup

def closeGroup (index : Nat) (body : Pattern) : Reader Unit :=
  modify fun s => { s with closed := (index, widthOf s.closed body) :: s.closed }

/-- The group that a condition asks for: a name, or a positive number, which may be signed, padded
and grouped by underscores. -/
def readCondition : Reader Nat := do
  let name ← readUntil ')'
  let s ← get
  let index ←
    if isName name then
      match s.names.find? (·.1 == name) with
      | some (_, index) => pure index
      | none => malformed
    else
      let cs := Text.trimWith Text.isBlank name.toList
      let cs := if cs.head? == some '+' then cs.drop 1 else cs
      let parts := cs.splitOn '_'
      if parts.any (·.isEmpty) || !(parts.all (·.all Char.isDigit)) then malformed
      else
        let index := decimalValue parts.flatten
        if index == 0 || countLimit ≤ 2 * index then malformed
        else
          set { s with asked := index :: s.asked }
          pure index
  checkBehind index
  return index

/-- An assertion about what stands before, whose matches must have one length. -/
def lookBehind (negated : Bool) (body : Pattern) : Reader Pattern := do
  let w := widthOf (← get).closed body
  if w.least != w.most || countLimit < w.least then refuseLater
  return .behind negated w.least body

/-- How the characters of a pattern are to be read. -/
structure Mode where
  flags : Flags
  verbose : Bool

/-- What kind of group an opening bracket starts. -/
inductive Opening where
  | capture (name : Option String)
  | plain
  | atomic
  | ahead (negated : Bool)
  | behind (negated : Bool)
  | condition (index : Nat)
  | flagged (on off : Flags)
  | everywhere (flags : Flags)
  | comment
  | backTo (name : String)

/-- Skips a comment and the bracket that ends it. -/
def skipComment : Reader Unit := do
  let s ← get
  let body := s.rest.takeWhile (· != .plain ')')
  if body.length == s.rest.length then malformed
  else set { s with rest := s.rest.drop (body.length + 1) }

/-- Reads what follows an opening bracket. -/
def readOpening : Reader Opening := do
  unless ← accept '?' do return .capture none
  match ← next with
  | some (.plain 'P') =>
    if ← accept '<' then
      let name ← readUntil '>'
      if isName name then return .capture (some name) else malformed
    else if ← accept '=' then
      let name ← readUntil ')'
      if isName name then return .backTo name else malformed
    else malformed
  | some (.plain ':') => return .plain
  | some (.plain '#') =>
    skipComment
    return .comment
  | some (.plain '=') => return .ahead false
  | some (.plain '!') => return .ahead true
  | some (.plain '<') =>
    match ← next with
    | some (.plain '=') => return .behind false
    | some (.plain '!') => return .behind true
    | _ => malformed
  | some (.plain '(') => return .condition (← readCondition)
  | some (.plain '>') => return .atomic
  | some (.plain c) =>
    match ← readFlags c with
    | .inl flags => return .everywhere flags
    | .inr (on, off) => return .flagged on off
  | _ => malformed

/-- Skips the rest of a line. -/
def skipLine : Reader Unit :=
  modify fun s => { s with rest := (s.rest.dropWhile (· != .plain '\n')).drop 1 }

def isLayout (c : Char) : Bool := c.toNat == 32 || (9 ≤ c.toNat && c.toNat ≤ 13)

def joinItems (items : List Item) : Pattern := sequence (items.reverse.map (·.pattern))

/-- Sets the limit that references inside an assertion about what stands before must respect, and
returns the one to restore. -/
def enterBehind : Reader (Option Nat) := do
  let s ← get
  set { s with behindFrom := some (s.behindFrom.getD s.nextGroup) }
  return s.behindFrom

def leaveBehind (outer : Option Nat) : Reader Unit := modify fun s => { s with behindFrom := outer }

mutual

/-- Alternatives up to the end or a closing bracket; `top` holds outside of all groups. -/
def readChoice (fuel : Nat) (mode : Mode) (top : Bool) : Reader Pattern :=
  match fuel with
  | 0 => malformed
  | fuel + 1 => do
    let first ← readSequence fuel mode top []
    readAlternatives fuel mode top [first]

/-- Further alternatives; `done` holds those read, latest first. -/
def readAlternatives (fuel : Nat) (mode : Mode) (top : Bool) (done : List Pattern) :
    Reader Pattern :=
  match fuel with
  | 0 => malformed
  | fuel + 1 => do
    if ← accept '|' then
      let s ← get
      let mode := if top then { flags := s.flags, verbose := s.flags.verbose } else mode
      let p ← readSequence fuel mode false []
      readAlternatives fuel mode top (p :: done)
    else return choice done.reverse

/-- Items up to the end, a bar or a closing bracket; `items` holds those read, latest first, and
flags for the whole pattern may stand at the start where `first` holds. -/
def readSequence (fuel : Nat) (mode : Mode) (first : Bool) (items : List Item) :
    Reader Pattern :=
  match fuel with
  | 0 => malformed
  | fuel + 1 => do
    match ← peek with
    | none => return joinItems items
    | some (.plain '|') => return joinItems items
    | some (.plain ')') => return joinItems items
    | some (.escaped c) =>
      let _ ← next
      readSequence fuel mode first ((← readEscape mode.flags c) :: items)
    | some (.plain c) =>
      let _ ← next
      if mode.verbose && isLayout c then readSequence fuel mode first items
      else if mode.verbose && c == '#' then
        skipLine
        readSequence fuel mode first items
      else if c == '[' then
        readSequence fuel mode first ({ pattern := ← readClass mode.flags } :: items)
      else if c == '*' || c == '+' || c == '?' || c == '\x7b' then
        match ← readBounds c with
        | none =>
          readSequence fuel mode first ({ pattern := literal mode.flags c.toNat } :: items)
        | some (least, most) =>
          readSequence fuel mode first (← repeatLast mode.flags least most items)
      else if c == '.' then
        let excluded : List SetItem := if mode.flags.dotAll then [] else [.char 10]
        let set : CharSet := { items := excluded, negated := true }
        readSequence fuel mode first ({ pattern := .one set } :: items)
      else if c == '^' then
        let place := if mode.flags.multiLine then .lineStart else .textStart
        readSequence fuel mode first (⟨.anchor place, .place⟩ :: items)
      else if c == '$' then
        let place := if mode.flags.multiLine then .lineEnd else .finalLine
        readSequence fuel mode first (⟨.anchor place, .place⟩ :: items)
      else if c == '(' then
        match ← readOpening with
        | .comment => readSequence fuel mode first items
        | .everywhere flags =>
          if !first || !items.isEmpty then malformed
          else
            modify fun s => { s with flags := s.flags.union flags }
            let flags := (← get).flags
            readSequence fuel { flags, verbose := flags.verbose } first items
        | .backTo name =>
          match (← get).names.find? (·.1 == name) with
          | none => malformed
          | some (_, index) =>
            readSequence fuel mode first ({ pattern := ← reference mode.flags index } :: items)
        | opening =>
          let p ← readGroup fuel mode opening
          expect ')'
          let p ← match opening with
            | .behind negated => lookBehind negated p
            | _ => pure p
          readSequence fuel mode first ({ pattern := p } :: items)
      else readSequence fuel mode first ({ pattern := literal mode.flags c.toNat } :: items)

/-- The inside of a group, up to its closing bracket. -/
def readGroup (fuel : Nat) (mode : Mode) (opening : Opening) : Reader Pattern :=
  match fuel with
  | 0 => malformed
  | fuel + 1 => do
    match opening with
    | .capture name =>
      let index ← openGroup name
      let p ← readChoice fuel mode false
      if (← peek) != some (.plain ')') then malformed
      else
        closeGroup index p
        return .group index p
    | .atomic => return .atomic (← readChoice fuel mode false)
    | .ahead negated => return .ahead negated (← readChoice fuel mode false)
    | .behind _ =>
      let outer ← enterBehind
      let p ← readChoice fuel mode false
      leaveBehind outer
      return p
    | .condition index =>
      let yes ← readSequence fuel mode false []
      let no ← if ← accept '|' then readSequence fuel mode false [] else pure .empty
      return .ifGroup index yes no
    | .flagged on off =>
      let flags := mode.flags.within on off
      let verbose := (mode.verbose || on.verbose) && !off.verbose
      readChoice fuel { flags, verbose } false
    | _ => readChoice fuel mode false

end

/-- Reads a whole pattern. -/
def readAll (fuel : Nat) (flags : Flags) : Reader Pattern := do
  let p ← readChoice fuel { flags, verbose := flags.verbose } true
  let s ← get
  if s.flags.ascii && s.flags.unicode then throw .conflictingFlags
  else if !s.rest.isEmpty || s.asked.any (s.nextGroup ≤ ·) || s.unmatchable then malformed
  else return p

/-- The pattern that a text writes, under given flags. -/
def compileWith (flags : Flags) (text : String) : Except Fault Pattern :=
  match tokens text.toList with
  | none => .error .malformed
  | some ts => (readAll (4 * ts.length + 8) flags |>.run { rest := ts, flags }).map (·.1)

/-- The pattern that a text writes. -/
def compile (text : String) : Except Fault Pattern := compileWith {} text

/-- The pattern that a text writes, without regard to case. -/
def compileFolded (text : String) : Except Fault Pattern :=
  compileWith { ignoreCase := true } text

/-! ## Patterns that the analyses are made of -/

/-- A text as it is written. -/
def exactly (s : String) : Pattern := sequence (s.toList.map fun c => literal {} c.toNat)

/-- A text without regard to case. -/
def anyCase (s : String) : Pattern :=
  sequence (s.toList.map fun c => literal { ignoreCase := true } c.toNat)

/-- One of the characters of a text. -/
def oneOf (s : String) : Pattern := setOf {} (s.toList.map fun c => .char c.toNat) false

/-- White space, if any. -/
def blanks : Pattern := .rep 0 none .greedy (.one { items := [.category .space false false] })

/-- Letters, digits and underscores, if any. -/
def wordChars : Pattern := .rep 0 none .greedy (.one { items := [.category .word false false] })

/-- A place where a word starts or ends. -/
def edge : Pattern := .anchor (.wordBoundary false)

end SinkAudit.Pattern
