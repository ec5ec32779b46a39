import MonkeyLang.Parse.Reading
import MonkeyLang.ReadLoop.Echo
import MonkeyLang.Text.Decimal
import MonkeyLang.Text.Resemblance

/-!
# Arguments

The command line has options, at most one file, and at most one subcommand. Words are taken from
the left. An option's value is a part of its word behind an equals sign, or else the next word;
a value in its own word is held back and accepted only when a later word begins something new,
so a word that nothing knows is reported before a bad value in front of it. A double dash makes
every later word a file. A word for which no place is left may be a misspelled subcommand, and is
then reported as one.

Behind the subcommand `repl` its own options apply. The words there are taken before the last
value in front of the subcommand is accepted.
-/

namespace MonkeyLang.CommandLine

open ReadLoop (Mode)

/-- Why the arguments are not carried out. -/
inductive EarlyExit
  /-- Two arguments exclude each other, or one was given twice. -/
  | conflict
  /-- A value is missing, empty where it must not be, or not one of those that exist. -/
  | invalidValue
  /-- A value should be a number and is none. -/
  | malformedNumber
  /-- A value was given to an option that takes none. -/
  | surplusValue
  /-- Nothing goes by this word here. -/
  | unknownArgument
  /-- A subcommand was meant that does not exist: help was asked for on it, or a word for which no
  place is left resembles the name of one. -/
  | unknownSubcommand
  /-- Help was asked for. -/
  | help
  /-- The version was asked for. -/
  | version
  deriving DecidableEq

/-- Asking for help or for the version succeeds; everything else is a misuse. -/
def EarlyExit.exitCode : EarlyExit → Nat
  | help => 0
  | version => 0
  | _ => 2

/-- What the arguments ask for. -/
structure Invocation where
  repl : Option Mode
  file : Option String
  listFile : Option String
  dumpFile : Option String
  maxDepth : Nat
  deriving DecidableEq

/-! ### Accepting values -/

/-- What takes a value. -/
inductive Slot
  | file
  | listFile
  | dumpFile
  | maxDepth
  | mode
  deriving DecidableEq

/-- The values accepted so far. -/
structure Accepted where
  file : Option String := none
  listFile : Option String := none
  dumpFile : Option String := none
  maxDepth : Option Nat := none
  mode : Option Mode := none

/-- A slot is filled when a value was accepted for it. -/
def Accepted.fills (a : Accepted) : Slot → Bool
  | .file => a.file.isSome
  | .listFile => a.listFile.isSome
  | .dumpFile => a.dumpFile.isSome
  | .maxDepth => a.maxDepth.isSome
  | .mode => a.mode.isSome

/-- A file name is any text that is not empty. -/
def acceptPath (value : String) : Except EarlyExit (Option String) :=
  if value.isEmpty then .error .invalidValue else .ok (some value)

/-- The count that a word denotes: digits, perhaps behind a plus sign, for a number that a
machine word holds. -/
def count? (word : String) : Option Nat :=
  let digits :=
    match word.toList with
    | '+' :: digits => digits
    | digits => digits
  if !digits.isEmpty && digits.all Char.isDigit && decide (decimalValue digits ≤ maxWord) then
    some (decimalValue digits)
  else none

/-- Accept a value for a slot, or see that there is none. -/
def Accepted.accept (a : Accepted) (slot : Slot) (value : Option String) :
    Except EarlyExit Accepted :=
  match value with
  | none => .error .invalidValue
  | some value =>
    if a.fills slot then .error .conflict
    else
      match slot with
      | .file => (acceptPath value).map fun path ↦ { a with file := path }
      | .listFile => (acceptPath value).map fun path ↦ { a with listFile := path }
      | .dumpFile => (acceptPath value).map fun path ↦ { a with dumpFile := path }
      | .maxDepth =>
        match count? value with
        | some n => .ok { a with maxDepth := some n }
        | none => .error .malformedNumber
      | .mode =>
        match Mode.ofSpelling? value with
        | some mode => .ok { a with mode := some mode }
        | none => .error .invalidValue

/-! ### Words -/

/-- The shapes of a word. -/
inductive Word
  /-- Two dashes. -/
  | dashes
  /-- A name behind two dashes, perhaps with a value behind an equals sign. -/
  | long (name : String) (value : Option String)
  /-- Letters behind one dash. -/
  | short (first : Char)
  /-- Anything else, a lone dash too. -/
  | plain (word : String)

/-- The shape of a word. -/
def Word.ofString (word : String) : Word :=
  match word.toList with
  | ['-', '-'] => dashes
  | '-' :: '-' :: cs =>
    let name := String.ofList (cs.takeWhile (· != '='))
    match cs.dropWhile (· != '=') with
    | [] => long name none
    | _ :: value => long name (some (String.ofList value))
  | '-' :: c :: _ => short c
  | _ => plain word

/-- What may stand on one level of the command line. -/
structure Level where
  /-- The options with a value, by name. -/
  options : List (String × Slot)
  /-- Whether a file, the subcommands and the version may stand here. -/
  isTop : Bool

/-- What may stand before a subcommand, or without one. -/
def Level.top : Level :=
  ⟨[("lex", .listFile), ("parse", .dumpFile), ("max-depth", .maxDepth)], true⟩

/-- What may stand behind the subcommand that starts the read loop. -/
def Level.repl : Level := ⟨[("mode", .mode), ("max-depth", .maxDepth)], false⟩

/-- What a flag asks for, by its long name. -/
def Level.flag? (level : Level) (name : String) : Option EarlyExit :=
  if name = "help" then some .help
  else if name = "version" ∧ level.isTop then some .version
  else none

/-- What a flag asks for, by its letter. -/
def Level.letter? (level : Level) (c : Char) : Option EarlyExit :=
  if c = 'h' then some .help
  else if c = 'V' ∧ level.isTop then some .version
  else none

/-- The names of the subcommands. -/
def subcommands : List String := ["repl", "help"]

/-- A misspelling of a subcommand is a word that is not its name, nor that of another one, but
resembles it by seven tenths. -/
def misspellsSubcommand (word : String) : Bool :=
  !subcommands.contains word &&
    subcommands.any fun name ↦ Text.resembles 7 10 word.toList name.toList

/-! ### Taking words from the left -/

/-- How far the words have been taken. -/
structure Progress where
  level : Level
  accepted : Accepted := {}
  /-- The slot named last, with its value if that has come. -/
  held : Option (Slot × Option String) := none
  /-- Whether the file's place is taken. -/
  hasFile : Bool := false
  /-- Whether two dashes have been passed. -/
  onlyFiles : Bool := false

namespace Progress

/-- The next word is a value when the slot named last has none. -/
def awaitsValue (p : Progress) : Option Slot :=
  match p.held with
  | some (slot, none) => some slot
  | _ => none

/-- Accept the value that is held back. -/
def settle (p : Progress) : Except EarlyExit Progress :=
  match p.held with
  | none => .ok p
  | some (slot, value) =>
    (p.accepted.accept slot value).map fun accepted ↦ { p with accepted, held := none }

/-- Why a word is refused for which no place is left. -/
def refusal (p : Progress) (word : String) : EarlyExit :=
  if p.level.isTop && misspellsSubcommand word then .unknownSubcommand else .unknownArgument

/-- Take a word as the file. -/
def takeFile (p : Progress) (word : String) : Except EarlyExit Progress :=
  if p.level.isTop && !p.hasFile then
    p.settle.map fun p ↦ { p with held := some (.file, some word), hasFile := true }
  else .error (p.refusal word)

/-- Take a named argument with the value in its word, if there is one. -/
def takeLong (p : Progress) (name : String) (value : Option String) :
    Except EarlyExit Progress :=
  match p.level.options.lookup name with
  | some slot => do
    let p ← p.settle
    match value with
    | some value => return { p with accepted := ← p.accepted.accept slot (some value) }
    | none => return { p with held := some (slot, none) }
  | none =>
    match p.level.flag? name, value with
    | none, _ => .error .unknownArgument
    | some _, some _ => .error .surplusValue
    | some exit, none => p.settle.bind fun _ ↦ .error exit

/-- Take flags by their letters; the first of them decides. -/
def takeShort (p : Progress) (first : Char) : Except EarlyExit Progress :=
  match p.level.letter? first with
  | none => .error .unknownArgument
  | some exit => p.settle.bind fun _ ↦ .error exit

/-- Take a word that names no subcommand. -/
def take (p : Progress) (word : String) : Except EarlyExit Progress :=
  if p.onlyFiles then p.takeFile word
  else
    match Word.ofString word with
    | .dashes => .ok { p with onlyFiles := true }
    | .long name value => p.takeLong name value
    | .short first => p.takeShort first
    | .plain word =>
      match p.awaitsValue with
      | some slot => .ok { p with held := some (slot, some word) }
      | none => p.takeFile word

/-- A subcommand may stand where no value is due, before any double dash. -/
def admitsSubcommand (p : Progress) : Bool :=
  p.level.isTop && !p.onlyFiles && p.awaitsValue.isNone

end Progress

/-- Help is given on the program and on each subcommand. -/
def helpOn : List String → EarlyExit
  | [] => .help
  | [word] => if subcommands.contains word then .help else .unknownSubcommand
  | _ => .unknownSubcommand

/-- Take words up to the end, or up to the subcommand `repl`, whose own words are left over. -/
def takeWords (p : Progress) : List String → Except EarlyExit (Progress × Option (List String))
  | [] => .ok (p, none)
  | word :: words =>
    if p.admitsSubcommand ∧ word = "repl" then .ok (p, some words)
    else if p.admitsSubcommand ∧ word = "help" then .error (helpOn words)
    else
      match p.take word with
      | .ok p => takeWords p words
      | .error exit => .error exit

/-- The values accepted from the words behind `repl`. -/
def replArguments (words : List String) : Except EarlyExit Accepted := do
  let (p, _) ← takeWords { level := .repl } words
  return (← p.settle).accepted

/-- A file excludes the options that name one. -/
def Accepted.inConflict (a : Accepted) : Bool :=
  a.file.isSome && (a.listFile.isSome || a.dumpFile.isSome)

/-- What a list of arguments asks for, or why it is not carried out. -/
def Invocation.ofArguments (words : List String) : Except EarlyExit Invocation := do
  let (p, behind) ← takeWords { level := .top } words
  let inner ← behind.mapM replArguments
  let outer := (← p.settle).accepted
  if outer.inConflict then throw .conflict
  return {
    repl := inner.map fun a ↦ a.mode.getD .tokens
    file := outer.file
    listFile := outer.listFile
    dumpFile := outer.dumpFile
    maxDepth := ((inner.bind Accepted.maxDepth).or outer.maxDepth).getD defaultMaxDepth }

/-- The settings that an invocation selects. -/
def Invocation.config (i : Invocation) : Config := ⟨i.maxDepth⟩

end MonkeyLang.CommandLine
