import MonkeyLang.ReadLoop.Echo
import MonkeyLang.ReadLoop.Writer
import MonkeyLang.Text.Lines

/-!
# The read loop

The loop prompts, reads a line, answers it and begins again; when the input ends it has just
prompted once more. A line that is not text ends the loop, and so does a piece that the writer
does not take. Whatever was written before that stays written: the writer is the state that a
failure leaves behind.

A turn of the loop, and what a session puts around the turns, are said for any channels that may
fail in these ways. Over a writer they make the transcript of an input that is at hand, and over a
terminal the program.
-/

namespace MonkeyLang.ReadLoop

/-- Why the loop ended before its input did. -/
inductive LoopError
  /-- A line of input is not text. -/
  | read
  /-- The writer did not take a piece. -/
  | write
  deriving DecidableEq

/-- What went wrong, in one line. -/
def LoopError.message : LoopError → String
  | read => "failed to read input: stream did not contain valid UTF-8"
  | write => "failed to write output: failed to write whole buffer"

/-- What the loop writes before it reads a line. -/
def prompt : String := ">> "

/-- The banner of a session, by name if there is one. -/
def greeting (user : Option String) : String :=
  (match user with
    | some name => "Hello " ++ name ++ "! This is the Monkey programming language"
    | none => "Hello! This is the Monkey programming language")
  ++ "\nFeel free to type in commands\n"

/-- The name to greet: the first of two variables that is set and not empty. -/
def userToGreet (valueOf : String → Option String) : Option String :=
  (["USER", "USERNAME"].filterMap valueOf).find? fun name ↦ !name.isEmpty

/-! ### Over any channels -/

section Channels

variable {m : Type → Type} [Monad m]

/-- One turn of the loop: prompt, read a line, and answer it. The result says whether there was a
line, and so whether the loop goes on. -/
def turn [MonadExceptOf LoopError m] (write : String → m Unit) (read : m (Option (List UInt8)))
    (mode : Mode) (config : Config) : m Bool := do
  write prompt
  match ← read with
  | none => return false
  | some line =>
    match decodeUtf8? line with
    | none => throw LoopError.read
    | some text =>
      (echo mode config text).forM write
      return true

/-- A session greets, holds its conversation, and ends the last prompt's line if nothing failed. -/
def sessionOver (write : String → m Unit) (conversation : m Unit) (user : Option String) :
    m Unit := do
  write (greeting user)
  conversation
  write "\n"

end Channels

/-! ### Over a writer -/

/-- A conversation over a writer. -/
abbrev Talk := EStateM LoopError Writer

/-- Write a piece, or fail with what fitted. -/
def say (text : String) : Talk Unit := fun w ↦
  match w.put text with
  | (true, w) => .ok () w
  | (false, w) => .error .write w

/-- Prompt for and answer every line. -/
def converse (mode : Mode) (config : Config) : List (List UInt8) → Talk Unit
  | [] => do
    let _ ← turn say (pure none) mode config
  | line :: lines => do
    if ← turn say (pure (some line)) mode config then converse mode config lines

/-- The bytes that a conversation writes, and the error that ended it, if one did. -/
def Talk.run (talk : Talk Unit) (room : Option Nat) : List UInt8 × Option LoopError :=
  match talk (.empty room) with
  | .ok _ w => (w.written.toList, none)
  | .error e w => (w.written.toList, some e)

/-- The loop over an input: the bytes written and the error that ended it, if one did. -/
def transcript (mode : Mode) (config : Config) (input : List UInt8) (room : Option Nat) :
    List UInt8 × Option LoopError :=
  (converse mode config (lines input)).run room

/-- A session over an input. -/
def session (mode : Mode) (config : Config) (user : Option String) (input : List UInt8) :
    Talk Unit :=
  sessionOver say (converse mode config (lines input)) user

end MonkeyLang.ReadLoop
