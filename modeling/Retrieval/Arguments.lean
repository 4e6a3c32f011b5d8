import Retrieval.Parameters

/-!
# Command-line arguments

A command line names a command and gives its options and positional arguments. An option has a long
name, which may hold its value behind an equals sign, or a short one, which may be followed by its
value at once. From the first word of a query on, all arguments are words of that query. Arguments
are read from left to right, and the first one that cannot be understood, or that asks for the usage,
ends the reading.
-/

namespace Retrieval

/-- How the model of a command is chosen. -/
structure ModelChoice where
  /-- The name of the model. -/
  name : String
  /-- The parameters of BM25. -/
  bm25 : Bm25 Float
  /-- The parameters of Indri. -/
  indri : Indri Float

/-- What a command line asks for. -/
inductive Command where
  /-- Evaluates the queries of a parameter file. -/
  | run (parameters : FilePath) (print : Bool)
  /-- Evaluates one query. -/
  | search (query : String) (index : FilePath) (limit : Nat) (model : ModelChoice)
  /-- Prints the tree of a query. -/
  | explain (query : String) (index : Option FilePath) (model : ModelChoice)
  /-- Prints the statistics of an index. -/
  | stats (index : FilePath)

/-- A command line that has been read. -/
structure CommandLine where
  /-- What it asks for. -/
  command : Command
  /-- Colors are turned off. -/
  noColor : Bool

namespace Arguments

/-- Why a command line gives no command. -/
inductive Stop where
  /-- An argument is not understood, or one is missing. -/
  | refused
  /-- The usage is asked for. -/
  | usage
deriving DecidableEq, Repr

/-- What an option is for. -/
inductive Kind where
  /-- It is given or not. -/
  | switch
  /-- It asks for the usage. -/
  | usage
  /-- It has a text. -/
  | text
  /-- It has a path, which is not empty. -/
  | path
  /-- It has a natural number. -/
  | count
  /-- It has a number. -/
  | number
deriving DecidableEq, Repr

/-- What an option gives. -/
inductive Value where
  /-- That it is there. -/
  | present
  /-- A text or path. -/
  | text (text : String)
  /-- A natural number. -/
  | count (number : Nat)
  /-- A number. -/
  | number (number : Float)

/-- The result, where nothing means that an argument is not understood. -/
def accept {α : Type} : Option α → Except Stop α
  | some value => .ok value
  | none => .error .refused

namespace Kind

/-- A value belongs to the option. -/
def takesValue (kind : Kind) : Bool :=
  kind ≠ .switch && kind ≠ .usage

/-- What an option with the given text gives. -/
def read (kind : Kind) (text : String) : Except Stop Value :=
  match kind with
  | .switch => .ok .present
  | .usage => .error .usage
  | .text => .ok (.text text)
  | .path => if text.isEmpty then .error .refused else .ok (.text text)
  | .count => accept ((Number.readNat? maximalCount text).map .count)
  | .number => accept ((Number.readFloat? text).map .number)

end Kind

/-- An option. -/
structure Flag where
  /-- The long name. -/
  long : String
  /-- The short name. -/
  short : Option Char
  /-- What it is for. -/
  kind : Kind

/-- What positional arguments may stand on a command line. -/
inductive Positionals where
  /-- None. -/
  | none
  /-- A path. -/
  | path
  /-- The words of a query. -/
  | words
  /-- The name of a command and all that follows it. -/
  | command
deriving DecidableEq

namespace Positionals

/-- From the first positional argument on, all arguments are positional. -/
def isOpen (positionals : Positionals) : Bool :=
  positionals = .words || positionals = .command

/-- The arguments may stand there, and others may follow. -/
def accepts : Positionals → List String → Bool
  | _, [] => true
  | .none, _ => false
  | .path, first :: later => !first.isEmpty && later.isEmpty
  | .words, _ => true
  | .command, _ => true

end Positionals

/-- The options and positional arguments of a command line. -/
structure Scanned where
  /-- The options with what they give, the last one first. -/
  flags : List (String × Value)
  /-- The positional arguments in their order. -/
  positionals : List String

/-- The option that is given before and after the name of a command. -/
def noColor : Flag := ⟨"no-color", none, .switch⟩

/-- The option that asks for the usage. -/
def helpFlag : Flag := ⟨"help", some 'h', .usage⟩

namespace Scanned

/-- Nothing has been read. -/
def empty : Scanned := ⟨[], []⟩

/-- What an option gives. -/
def get? (scanned : Scanned) (long : String) : Option Value := scanned.flags.lookup long

/-- The option is given. -/
def has (scanned : Scanned) (long : String) : Bool := (scanned.get? long).isSome

/-- Notes an option with its text. An option may be given once only. -/
def note (scanned : Scanned) (flag : Flag) (text : String) : Except Stop Scanned := do
  if scanned.has flag.long then throw .refused
  return { scanned with flags := (flag.long, ← flag.kind.read text) :: scanned.flags }

/-- Notes positional arguments. -/
def add (scanned : Scanned) (positionals : Positionals) (arguments : List String) :
    Except Stop Scanned :=
  let all := scanned.positionals ++ arguments
  if positionals.accepts all then .ok { scanned with positionals := all } else .error .refused

/-- The text of an option. -/
def text? (scanned : Scanned) (long : String) : Option String :=
  match scanned.get? long with
  | some (.text text) => some text
  | _ => none

/-- The natural number of an option, or the usual one. -/
def count (scanned : Scanned) (long : String) (usual : Nat) : Nat :=
  match scanned.get? long with
  | some (.count number) => number
  | _ => usual

/-- The number of an option, or the usual one. -/
def number (scanned : Scanned) (long : String) (usual : Float) : Float :=
  match scanned.get? long with
  | some (.number number) => number
  | _ => usual

end Scanned

/-- The argument has the form of an option. -/
def isOption (argument : String) : Bool :=
  match argument.toList with
  | '-' :: _ :: _ => true
  | _ => false

/-- What the short options of an argument give: noted in place, or an option whose value is the next
argument. -/
def scanShort (flags : List Flag) : List Char → Scanned → Except Stop (Scanned × Option Flag)
  | [], scanned => .ok (scanned, none)
  | name :: later, scanned => do
      let flag ← accept (flags.find? fun flag => flag.short = some name)
      if flag.kind.takesValue then
        match later with
        | [] => return (scanned, some flag)
        | '=' :: value => return (← scanned.note flag (String.ofList value), none)
        | value => return (← scanned.note flag (String.ofList value), none)
      else scanShort flags later (← scanned.note flag "")

/-- What a long option gives: noted in place, or an option whose value is the next argument. -/
def scanLong (flags : List Flag) (argument : List Char) (scanned : Scanned) :
    Except Stop (Scanned × Option Flag) := do
  let (name, value) := match Text.cutCharacters '=' argument with
    | some (name, value) => (name, some value)
    | none => (argument, none)
  let flag ← accept (flags.find? fun flag => flag.long = String.ofList name)
  match flag.kind.takesValue, value with
  | true, some value => return (← scanned.note flag (String.ofList value), none)
  | true, none => return (scanned, some flag)
  | false, some _ => throw .refused
  | false, none => return (← scanned.note flag "", none)

/-- Scans arguments; `pending` is the option whose value comes next. Behind two dashes all arguments
are positional, but no command may stand there. -/
def scan (flags : List Flag) (positionals : Positionals) :
    Option Flag → List String → Scanned → Except Stop Scanned
  | none, [], scanned => .ok scanned
  | some _, [], _ => .error .refused
  | some flag, value :: later, scanned => do
      if isOption value then throw .refused
      scan flags positionals none later (← scanned.note flag value)
  | none, argument :: later, scanned => do
      match argument.toList with
      | ['-', '-'] =>
          if positionals = .command then throw .refused
          scanned.add positionals later
      | '-' :: '-' :: long =>
          let (scanned, pending) ← scanLong flags long scanned
          scan flags positionals pending later scanned
      | '-' :: name :: names =>
          let (scanned, pending) ← scanShort flags (name :: names) scanned
          scan flags positionals pending later scanned
      | _ =>
          if positionals.isOpen then scanned.add positionals (argument :: later)
          else scan flags positionals none later (← scanned.add positionals [argument])

/-- The options of the model. -/
def modelFlags : List Flag :=
  [⟨"model", some 'm', .text⟩, ⟨"k1", none, .number⟩, ⟨"b", none, .number⟩, ⟨"k3", none, .number⟩,
   ⟨"lambda", none, .number⟩, ⟨"mu", none, .number⟩]

/-- The option of the index. -/
def indexFlag : Flag := ⟨"index", some 'i', .path⟩

/-- The number of rows of a search that names none. -/
def usualLimit : Nat := 10

/-- The choice of the model. -/
def modelChoice (scanned : Scanned) : ModelChoice where
  name := (scanned.text? "model").getD "indri"
  bm25 := ⟨scanned.number "k1" Bm25.usual.k1, scanned.number "b" Bm25.usual.b,
    scanned.number "k3" Bm25.usual.k3⟩
  indri := ⟨scanned.number "lambda" Indri.usual.lambda, scanned.number "mu" Indri.usual.mu⟩

/-- The words of the query, with blanks between them. -/
def query? (scanned : Scanned) : Option String :=
  if scanned.positionals.isEmpty then none
  else some (" ".intercalate scanned.positionals)

/-- What a command is made of: its options, its positional arguments, and its reading. -/
structure Form where
  /-- The options of the command alone. -/
  flags : List Flag
  /-- The positional arguments. -/
  positionals : Positionals
  /-- The command that scanned arguments give; none if one is missing. -/
  command : Scanned → Option Command

/-- The commands by name. -/
def commands : List (String × Form) :=
  [("run",
    { flags := [⟨"print", some 'p', .switch⟩, ⟨"no-progress", none, .switch⟩]
      positionals := .path
      command := fun scanned => do
        return .run (← scanned.positionals.head?) (scanned.has "print") }),
   ("search",
    { flags := [indexFlag, ⟨"limit", some 'n', .count⟩] ++ modelFlags
      positionals := .words
      command := fun scanned => do
        return .search (← query? scanned) (← scanned.text? "index")
          (scanned.count "limit" usualLimit) (modelChoice scanned) }),
   ("explain",
    { flags := indexFlag :: modelFlags
      positionals := .words
      command := fun scanned => do
        return .explain (← query? scanned) (scanned.text? "index") (modelChoice scanned) }),
   ("stats",
    { flags := [indexFlag]
      positionals := .none
      command := fun scanned => do
        return .stats (← scanned.text? "index") })]

/-- The command line that the arguments after the name of a command give. -/
def readCommand (form : Form) (arguments : List String) : Except Stop CommandLine := do
  let flags := noColor :: helpFlag :: form.flags
  let scanned ← scan flags form.positionals none arguments .empty
  return ⟨← accept (form.command scanned), scanned.has noColor.long⟩

/-- What comes of asking for the usage of the given commands: at most one, which has to exist. -/
def readHelp : List String → Stop
  | [] => .usage
  | [name] => if name = helpFlag.long || (commands.lookup name).isSome then .usage else .refused
  | _ => .refused

/-- Reads a command line. -/
def read (arguments : List String) : Except Stop CommandLine := do
  let scanned ← scan [noColor, helpFlag] .command none arguments .empty
  match scanned.positionals with
  | [] => throw .refused
  | name :: later =>
      if name = helpFlag.long then throw (readHelp later)
      let line ← readCommand (← accept (commands.lookup name)) later
      return { line with noColor := line.noColor || scanned.has noColor.long }

end Arguments

end Retrieval
