/-
# TreeSchema.Main — the program `node-schema`.

Everything here asks the operating system and answers nothing itself.
-/
import TreeSchema.CommandLine.Run

namespace TreeSchema.Files

/-- A refusal from the number and the words of the operating system. -/
def Refused.ofCode (code : UInt32) (text : String) : Refused :=
  if code = 2 then .notFound
  else if code = 20 then .notDirectory
  else if code = 21 then .isDirectory
  else if code = 36 then .nameTooLong
  else .other (text ++ " (os error " ++ toString code ++ ")")

/-- A refusal as the operating system reports it. -/
def Refused.ofError (e : IO.Error) : Refused :=
  match e with
  | .noFileOrDirectory _ code text | .inappropriateType _ code text
  | .invalidArgument _ code text | .permissionDenied _ code text
  | .resourceExhausted _ code text | .noSuchThing _ code text
  | .resourceBusy code text | .hardwareFault code text | .otherError code text => .ofCode code text
  | e => .other (toString e)

/-- What an action gives, or why it was refused. -/
def attempt {α : Type} (path : String) (act : IO α) : IO (Except Refused α) :=
  if path.toList.contains '\x00' then pure (.error .zeroInName)
  else
    tryCatch (do
      let a ← act
      pure (.ok a)) fun e => pure (.error (.ofError e))

/-- The content of an open file; a directory can be opened but not read. -/
def content (h : IO.FS.Handle) : IO Opened :=
  tryCatch (do
    let data ← h.readBinToEnd
    pure (.file data)) fun e =>
      if Refused.ofError e = .isDirectory then pure .directory else throw e

/-- The file system of the operating system. -/
def system : Access IO where
  entry? path := do
    let found ← attempt path do
      let place ← IO.FS.realPath path
      let metadata ← place.metadata
      pure (match metadata.type with
        | .file => some .file
        | .dir => some .directory
        | _ => none)
    pure (found.toOption.getD none)
  fetch path := attempt path do
    let h ← IO.FS.Handle.mk path .read
    content h
  names path := attempt path do
    let place ← IO.FS.realPath path
    let entries ← place.readDir
    pure (entries.toList.map fun entry => entry.fileName)
  store path content := attempt path (IO.FS.writeFile path content)

end TreeSchema.Files

/-- Does what the command line says. -/
def main (words : List String) : IO UInt32 := do
  let exit ← TreeSchema.CommandLine.run TreeSchema.Files.system words
  IO.print exit.output
  match exit.complaint with
  | some line => IO.eprintln line
  | none => pure ()
  pure exit.code.toUInt32
