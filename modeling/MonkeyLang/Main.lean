import MonkeyLang.CommandLine.Command

/-!
# The program

The outer layer: it reads files and standard input, writes to the two channels, and leaves every
decision to the library. The read loop is run here a line at a time, so that each answer is seen
before the next line is typed; its turns and its lines are those of the library.
-/

namespace MonkeyLang.Terminal

open CommandLine
open ReadLoop (Mode LoopError turn sessionOver userToGreet)

/-- What a failure of the system means for a path. -/
def faultOf : IO.Error → FileFault
  | .noFileOrDirectory .. => .missing
  | .inappropriateType .. => .directory
  | e => .other (toString e)

/-- Count the bytes that are left, and keep them as long as a source file may have that many. -/
partial def readRest (h : IO.FS.Handle) (count : Nat) (kept : ByteArray) :
    IO (Nat × ByteArray) := do
  let chunk ← h.read 65536
  if chunk.isEmpty then return (count, kept)
  let count := count + chunk.size
  readRest h count (if count ≤ maxSourceSize then kept ++ chunk else kept)

/-- Ask something of the bytes of a file. -/
def askFile {α : Type} (path : String) (ask : Nat × ByteArray → α) :
    IO (Except FileFault α) := do
  try
    let h ← IO.FS.Handle.mk path .read
    return .ok (ask (← readRest h 0 .empty))
  catch e => return .error (faultOf e)

/-- The files of the machine. A directory has a size, but no bytes. -/
def files : Files IO where
  size path := do
    match ← askFile path Prod.fst with
    | .error .directory => return .ok 0
    | answer => return answer
  read path := askFile path fun bytes ↦ bytes.2.data.toList

/-- The next line of input, of which the bytes `line`, in reverse, have been read. -/
partial def readLine (input : IO.FS.Stream) (line : List UInt8) : IO (Option (List UInt8)) := do
  match (← input.read 1).data.toList with
  | b :: _ =>
    match readByte line b with
    | .whole read => return some read
    | .begun line => readLine input line
  | [] => return lastLine? line

/-- A conversation at the terminal. -/
abbrev Talk := ExceptT LoopError IO

/-- Write a piece. -/
def say (output : IO.FS.Stream) (piece : String) : Talk Unit := output.putStr piece

/-- Prompt for and answer every line of input, with each prompt in sight before its line is read. -/
partial def converse (mode : Mode) (config : Config) (input output : IO.FS.Stream) :
    Talk Unit := do
  let nextLine : Talk (Option (List UInt8)) := do
    output.flush
    readLine input []
  if ← turn (say output) nextLine mode config then converse mode config input output

/-- A session at the terminal. -/
def session (mode : Mode) (config : Config) : IO UInt32 := do
  let output ← IO.getStdout
  let input ← IO.getStdin
  let user ← IO.getEnv "USER"
  let userName ← IO.getEnv "USERNAME"
  let name := userToGreet fun name ↦ if name = "USER" then user else userName
  match ← (sessionOver (say output) (converse mode config input output) name).run with
  | .ok () => return 0
  | .error e =>
    output.flush
    IO.eprintln e.message
    return 1

/-- Write what a run leaves behind. -/
def deliver (outcome : Outcome) : IO UInt32 := do
  (← IO.getStdout).write ⟨outcome.output.toArray⟩
  match outcome.complaint with
  | .nothing => pure ()
  | .message text => IO.eprintln text
  | .usage => IO.eprint usageText
  | .reports text => IO.eprintln text
  return outcome.exitCode.toUInt32

end MonkeyLang.Terminal

open MonkeyLang.CommandLine MonkeyLang.Terminal in
/-- Run the program on its arguments. -/
def main (arguments : List String) : IO UInt32 := do
  match Invocation.ofArguments arguments with
  | .error exit => deliver (.ofEarlyExit exit)
  | .ok i =>
    match i.command with
    | .converse mode => session mode i.config
    | command => deliver (← command.run files none [] i.config)
