/-
# TreeSchema.Files.Content — the content of files as structured text.
-/
import TreeSchema.LoadError

namespace TreeSchema.Files

variable {m : Type → Type} [Monad m]

/-- Reads all of a file with a reader for its content. -/
def readContent {α : Type} (fs : Access m) (format : Format) (read : Readable α) (path : String) :
    ExceptT LoadError m α :=
  ExceptT.mk do
    match ← fs.fetch path with
    | .error why => pure (.error (.file why))
    | .ok .directory => pure (.error (.interrupted format .isDirectory))
    | .ok (.file content) =>
      match format.readBytes read content with
      | .ok a => pure (.ok a)
      | .error why => pure (.error (.unreadable format why))

/-- Writes a document as the content of a file. -/
def writeContent (fs : Access m) (format : Format) (d : Document) (path : String) :
    ExceptT LoadError m Unit :=
  ExceptT.mk do
    match ← fs.store path (format.write d) with
    | .error why => pure (.error (.file why))
    | .ok () => pure (.ok ())

end TreeSchema.Files
