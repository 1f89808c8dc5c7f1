import SinkAudit.Text.Case
import SinkAudit.Text.Find
import SinkAudit.Text.Quoted

/-! # Reading arguments

Options start with a hyphen and take a fixed number of arguments. A long option may be shortened
as long as it stays the only one, and may have its argument after an equals sign. Short options
without arguments may be written together. After two hyphens nothing is an option. -/
namespace SinkAudit.CommandLine

/-- What an option is about. -/
inductive Key where
  | help
  | verbose
  | project
  | config
  | severity
  | check
  | disable
  | format
  | output
  | bundle
  | failOn
  deriving DecidableEq, Repr

structure OptionSpec where
  key : Key
  names : List String
  /-- How many arguments the option takes. -/
  arity : Nat := 1
  /-- What each argument may be, if not anything. -/
  choices : Option (List String) := none
  deriving DecidableEq, Repr

/-- The options of a command, and the commands that may follow them. -/
structure Interface where
  program : String
  options : List OptionSpec
  commands : List String := []
  deriving DecidableEq, Repr

/-- Why reading stops. -/
inductive Stop where
  /-- Help is asked for. -/
  | help
  /-- The arguments are not acceptable to a command. -/
  | usage (program message : String)
  deriving DecidableEq, Repr

def Stop.line : Stop → String
  | .help => ""
  | .usage program message => program ++ ": error: " ++ message

/-- An option as it stands among the arguments. -/
structure Mention where
  /-- The option, if it is known. -/
  option : Option OptionSpec := none
  name : String
  /-- Whether an equals sign stands before the argument. -/
  equals : Bool := false
  /-- An argument written together with the option. -/
  attached : Option String := none
  deriving DecidableEq, Repr

inductive Role where
  | argument
  | mention (m : Mention)
  /-- The two hyphens after which nothing is an option. -/
  | divider
  deriving DecidableEq, Repr

structure Slot where
  text : String
  role : Role
  deriving DecidableEq, Repr

def Slot.isMention (s : Slot) : Bool :=
  match s.role with
  | .mention _ => true
  | _ => false

namespace Interface

/-- The names of all options, in order, each with its option. -/
def table (i : Interface) : List (String × OptionSpec) :=
  i.options.flatMap fun o => o.names.map (·, o)

def usage {α : Type} (i : Interface) (message : String) : Except Stop α :=
  .error (.usage i.program message)

/-- A complaint about an option. -/
def complain {α : Type} (i : Interface) (o : OptionSpec) (message : String) : Except Stop α :=
  i.usage ("argument " ++ "/".intercalate o.names ++ ": " ++ message)

end Interface

/-- The part before the first equals sign and, if there is one, the part after it. -/
def splitEquals (s : String) : String × Option String :=
  let before := s.toList.takeWhile (· != '=')
  (String.ofList before,
    if before.length == s.length then none
    else some (String.ofList (s.toList.drop (before.length + 1))))

/-- The options that an argument that is no full name may stand for. -/
def candidates (i : Interface) (arg : String) : List Mention :=
  if Text.startsWith arg "--" then
    let (start, attached) := splitEquals arg
    (i.table.filter fun (name, _) => Text.startsWith name start).map fun (name, o) =>
      { option := some o, name, equals := attached.isSome, attached }
  else
    let short := String.ofList (arg.toList.take 2)
    i.table.filterMap fun (name, o) =>
      if name == short then
        some { option := some o, name, attached := some (String.ofList (arg.toList.drop 2)) }
      else if Text.startsWith name arg then some { option := some o, name }
      else none

/-- Digits after a hyphen, with a point among or before them or without. -/
def isNegativeNumber (arg : String) : Bool :=
  let cs := arg.toList.drop 1
  let cs := if cs.getLast? == some '\n' then cs.dropLast else cs
  match cs.splitOn '.' with
  | [whole] => !whole.isEmpty && whole.all Text.isDecimal
  | [whole, rest] => !rest.isEmpty && (whole ++ rest).all Text.isDecimal
  | _ => false

/-- The role of an argument before the divider. -/
def roleOf (i : Interface) (arg : String) : Except Stop Role :=
  match arg.toList with
  | '-' :: _ :: _ =>
    let (start, attached) := splitEquals arg
    match i.table.lookup arg, attached.bind fun _ => i.table.lookup start with
    | some o, _ => .ok (.mention { option := some o, name := arg })
    | none, some o => .ok (.mention { option := some o, name := start, equals := true, attached })
    | none, none =>
      match candidates i arg with
      | [m] => .ok (.mention m)
      | [] =>
        if isNegativeNumber arg || arg.toList.contains ' ' then .ok .argument
        else .ok (.mention { name := arg })
      | ms =>
        i.usage ("ambiguous option: " ++ arg ++ " could match " ++
          ", ".intercalate (ms.map (·.name)))
  | _ => .ok .argument

/-- The roles of all arguments. -/
def slots (i : Interface) : List String → Except Stop (List Slot)
  | [] => .ok []
  | arg :: args =>
    if arg == "--" then
      .ok ({ text := arg, role := .divider } :: args.map fun text => { text, role := .argument })
    else do
      let role ← roleOf i arg
      return { text := arg, role } :: (← slots i args)

def expected (arity : Nat) : String :=
  if arity == 1 then "expected one argument" else "expected " ++ toString arity ++ " arguments"

/-- An option that is given, with its arguments. -/
structure Given where
  option : OptionSpec
  arguments : List String
  deriving DecidableEq, Repr

/-- What a mention comes to: the options given, what is not known, and the arguments left. -/
structure Taken where
  given : List Given
  unknown : List String := []
  rest : List Slot

/-- Takes the arguments of an option from those that follow. -/
def takeFollowing (i : Interface) (o : OptionSpec) (rest : List Slot) : Except Stop Taken :=
  let arguments := rest.take o.arity
  if arguments.length == o.arity && arguments.all (·.role == .argument) then
    let given : List Given := [{ option := o, arguments := arguments.map (·.text) }]
    .ok { given, rest := rest.drop o.arity }
  else i.complain o (expected o.arity)

/-- Takes an option with what is attached to it; `fuel` bounds the short options in one word. -/
def takeAttached (i : Interface) (rest : List Slot) :
    Nat → OptionSpec → Mention → Except Stop Taken
  | 0, o, _ => i.complain o (expected o.arity)
  | fuel + 1, o, m =>
    match m.attached with
    | none => takeFollowing i o rest
    | some attached =>
      if o.arity == 1 then .ok { given := [{ option := o, arguments := [attached] }], rest }
      else if o.arity != 0 then i.complain o (expected o.arity)
      else
        let refuse := i.complain o ("ignored explicit argument " ++ Text.quoted attached)
        match attached.toList with
        | [] => refuse
        | c :: cs =>
          if Text.startsWith m.name "--" || m.equals || c == '-' then refuse
          else
            let name := String.ofList ['-', c]
            let first : Given := { option := o, arguments := [] }
            match i.table.lookup name with
            | none => .ok { given := [first], unknown := ["-" ++ attached], rest }
            | some next => do
              let mention : Mention := match cs with
                | [] => { name }
                | '=' :: ds => { name, equals := true, attached := some (String.ofList ds) }
                | ds => { name, attached := some (String.ofList ds) }
              let taken ← takeAttached i rest fuel next mention
              return { taken with given := first :: taken.given }

/-- Accepts the arguments of an option, and stops if it asks for help. -/
def accept (i : Interface) (g : Given) : Except Stop Unit :=
  match g.option.choices, g.arguments.find? fun a => !(g.option.choices.all (·.contains a)) with
  | some choices, some bad =>
    i.complain g.option ("invalid choice: " ++ Text.quoted bad ++ " (choose from " ++
      ", ".intercalate (choices.map Text.quoted) ++ ")")
  | _, _ => if g.option.key == .help then .error .help else .ok ()

/-- What has been read. -/
structure Arguments where
  given : List Given := []
  /-- The command and all that follows it. -/
  command : Option (List String) := none
  /-- Arguments that mean nothing. -/
  unknown : List String := []

/-- Whether a command may start here. -/
def startsCommand (i : Interface) (ss : List Slot) : Bool :=
  !i.commands.isEmpty &&
    ((ss.dropWhile (·.role == .divider)).head?.any (·.role == .argument))

def readSlots (i : Interface) : Nat → List Slot → Arguments → Except Stop Arguments
  | 0, _, a => .ok a
  | fuel + 1, ss, a =>
    match ss with
    | [] => .ok a
    | s :: rest =>
      match s.role with
      | .mention m =>
        match m.option with
        | none => readSlots i fuel rest { a with unknown := a.unknown ++ [s.text] }
        | some o => do
          let taken ← takeAttached i rest (s.text.length + 1) o m
          taken.given.forM (accept i)
          readSlots i fuel taken.rest
            { a with given := a.given ++ taken.given, unknown := a.unknown ++ taken.unknown }
      | _ =>
        if startsCommand i ss then .ok { a with command := some (ss.map (·.text)) }
        else
          let skipped := ss.takeWhile (!·.isMention)
          readSlots i fuel (ss.dropWhile (!·.isMention))
            { a with unknown := a.unknown ++ skipped.map (·.text) }

/-- Reads arguments. -/
def Interface.read (i : Interface) (args : List String) : Except Stop Arguments := do
  readSlots i (args.length + 1) (← slots i args) {}

namespace Arguments

/-- The arguments of every mention of an option. -/
def all (a : Arguments) (key : Key) : List (List String) :=
  (a.given.filter (·.option.key == key)).map (·.arguments)

/-- The argument of the last mention of an option. -/
def last? (a : Arguments) (key : Key) : Option String := (a.all key).getLast?.bind (·.head?)

/-- The single arguments of every mention of an option. -/
def list (a : Arguments) (key : Key) : List String := (a.all key).filterMap (·.head?)

def has (a : Arguments) (key : Key) : Bool := !(a.all key).isEmpty

end Arguments

end SinkAudit.CommandLine
