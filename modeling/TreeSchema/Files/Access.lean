/-
# TreeSchema.Files.Access — what is asked of a file system.

Loading and saving need no more of a file system than four questions, whoever answers them.
-/

namespace TreeSchema.Files

/-- Why a file system refused. -/
inductive Refused where
  | notFound
  | notDirectory
  | isDirectory
  | nameTooLong
  | zeroInName
  /-- Any other reason, in the words of the system. -/
  | other (text : String)
deriving DecidableEq

/-- The wording of a refusal. -/
def Refused.message : Refused → String
  | notFound => "No such file or directory (os error 2)"
  | notDirectory => "Not a directory (os error 20)"
  | isDirectory => "Is a directory (os error 21)"
  | nameTooLong => "File name too long (os error 36)"
  | zeroInName => "file name contained an unexpected NUL byte"
  | other text => text

/-- What is found where something is opened to be read. -/
inductive Opened where
  | file (content : ByteArray)
  /-- Opening succeeds, and the first attempt to read fails. -/
  | directory

/-- What a path may lead to. -/
inductive Entry where
  | file
  | directory
deriving DecidableEq

/-- A file system. -/
structure Access (m : Type → Type) where
  /-- What a path leads to, if it is a file or a directory. -/
  entry? : (path : String) → m (Option Entry)
  /-- Opens a file to read all of it. -/
  fetch : (path : String) → m (Except Refused Opened)
  /-- The names of what is in a directory, in any order. -/
  names : (path : String) → m (Except Refused (List String))
  /-- Creates a file or replaces its content. -/
  store : (path : String) → (content : String) → m (Except Refused Unit)

/-- A question that is always answered, asked where other work may fail. -/
def ask {m : Type → Type} [Monad m] {ε α : Type} (question : m α) : ExceptT ε m α :=
  ExceptT.lift question

end TreeSchema.Files
