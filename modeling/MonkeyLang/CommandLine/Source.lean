import MonkeyLang.Text.Utf8

/-!
# Source files

A source file is looked at before it is read, so that one that is too large is never read. The
module does not say what a file system is. It takes one as two questions, how large a file is
and what its bytes are, asked in any monad, and states the order of the questions and what each
bad answer means.
-/

namespace MonkeyLang.CommandLine

/-- What can be wrong with a path. -/
inductive FileFault
  | missing
  | directory
  | other (reason : String)
  deriving DecidableEq

/-- The system's words for a fault. -/
def FileFault.reason : FileFault → String
  | missing => "No such file or directory (os error 2)"
  | directory => "Is a directory (os error 21)"
  | other reason => reason

/-- The questions that a file system answers, by path. -/
structure Files (m : Type → Type) where
  size : String → m (Except FileFault Nat)
  read : String → m (Except FileFault (List UInt8))

/-- The number of bytes that a source file may have. -/
def maxSourceSize : Nat := 100 * 1024 * 1024

/-- Why there is no source text. -/
inductive SourceError
  | inaccessible (path : String) (fault : FileFault)
  | tooLarge (path : String) (size : Nat)
  | unreadable (path : String) (fault : FileFault)
  | notText (path : String)
  deriving DecidableEq

/-- What went wrong, in one line. -/
def SourceError.message : SourceError → String
  | inaccessible path fault => "Cannot access file '" ++ path ++ "': " ++ fault.reason
  | tooLarge path size =>
    "Source file '" ++ path ++ "' is too large (" ++ size.repr ++ " bytes, max "
      ++ maxSourceSize.repr ++ " bytes)"
  | unreadable path fault => "Error reading file '" ++ path ++ "': " ++ fault.reason
  | notText path => "Error reading file '" ++ path ++ "': stream did not contain valid UTF-8"

variable {m : Type → Type} [Monad m]

/-- The text of a source file, or why there is none. -/
def Files.source (files : Files m) (path : String) : m (Except SourceError String) := do
  match ← files.size path with
  | .error fault => return .error (.inaccessible path fault)
  | .ok size =>
    if size > maxSourceSize then return .error (.tooLarge path size)
    else
      match ← files.read path with
      | .error fault => return .error (.unreadable path fault)
      | .ok bytes =>
        match decodeUtf8? bytes with
        | none => return .error (.notText path)
        | some text => return .ok text

end MonkeyLang.CommandLine
