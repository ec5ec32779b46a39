import MonkeyLang.CommandLine.Arguments
import MonkeyLang.CommandLine.Source
import MonkeyLang.CommandLine.Usage
import MonkeyLang.Diagnostic.Report
import MonkeyLang.ReadLoop.Loop

/-!
# Commands

An invocation selects one command: list the tokens of a file, dump its program, write its
program, or run the read loop. The first that applies is carried out, in that order, except
that the subcommand goes before a file named without an option. What a command leaves behind is
an exit code and what it wrote on either channel.
-/

namespace MonkeyLang.CommandLine

open ReadLoop (Mode)

/-! ### What is shown of a source text -/

/-- A line for each token of a text, the end of the input too. -/
def tokenLines (source : String) : String :=
  String.join ((tokenize source).map fun t ↦ t.renderIn source ++ "\n")

/-- The program of a text, or the reports on its errors. -/
def programOrReports (path : String) (config : Config) (source : String) : Except String Program :=
  (parse config source).toExcept.mapError (Report.ofErrors path)

/-! ### Carrying out an invocation -/

/-- What a program is asked to do. -/
inductive Command
  | listTokens (path : String)
  | dumpProgram (path : String)
  | writeProgram (path : String)
  | converse (mode : Mode)
  deriving DecidableEq

/-- The command that an invocation selects. -/
def Invocation.command (i : Invocation) : Command :=
  match i.listFile, i.dumpFile, i.repl, i.file with
  | some path, _, _, _ => .listTokens path
  | none, some path, _, _ => .dumpProgram path
  | none, none, some mode, _ => .converse mode
  | none, none, none, some path => .writeProgram path
  | none, none, none, none => .converse .tokens

/-- What stands on the channel for errors. -/
inductive Complaint
  | nothing
  /-- A message of the program's own. -/
  | message (text : String)
  /-- How the program is used, because it was not used so. -/
  | usage
  /-- Reports on a text that does not parse. -/
  | reports (text : String)
  deriving DecidableEq

/-- What a run of the program leaves behind. -/
structure Outcome where
  exitCode : Nat
  output : List UInt8
  complaint : Complaint
  deriving DecidableEq

namespace Outcome

/-- A success, with its output. -/
def success (output : String) : Outcome := ⟨0, encodeUtf8 output, .nothing⟩

/-- A failure without output. -/
def failure (complaint : Complaint) : Outcome := ⟨1, [], complaint⟩

/-- Show something of the program of a text, or report its errors. -/
def ofParse (show_ : Program → String) : Except String Program → Outcome
  | .ok program => success (show_ program ++ "\n")
  | .error text => failure (.reports text)

/-- A session of the read loop. -/
def ofTalk (talk : ReadLoop.Talk Unit) : Outcome :=
  match talk.run none with
  | (output, none) => ⟨0, output, .nothing⟩
  | (output, some e) => ⟨1, output, .message e.message⟩

/-- What is left when the arguments are not carried out. -/
def ofEarlyExit (exit : EarlyExit) : Outcome :=
  match exit with
  | .version => success versionLine
  | .help => success helpText
  | _ => ⟨exit.exitCode, [], .usage⟩

end Outcome

variable {m : Type → Type} [Monad m]

/-- Load a source text and go on with it, unless there is none. -/
def withSource (files : Files m) (path : String) (go : String → Outcome) : m Outcome := do
  match ← files.source path with
  | .ok source => return go source
  | .error e => return .failure (.message e.message)

/-- Carry out a command on the files, the user's name and the input that there are. -/
def Command.run (files : Files m) (user : Option String) (input : List UInt8) (config : Config) :
    Command → m Outcome
  | listTokens path => withSource files path fun source ↦ .success (tokenLines source)
  | dumpProgram path => withSource files path fun source ↦
      .ofParse (fun program ↦ program.dump.indented) (programOrReports path config source)
  | writeProgram path => withSource files path fun source ↦
      .ofParse Program.render (programOrReports path config source)
  | converse mode => return .ofTalk (ReadLoop.session mode config user input)

/-- Run the program on its arguments. -/
def execute (files : Files m) (user : Option String) (input : List UInt8)
    (arguments : List String) : m Outcome :=
  match Invocation.ofArguments arguments with
  | .error exit => return .ofEarlyExit exit
  | .ok i => i.command.run files user input i.config

end MonkeyLang.CommandLine
