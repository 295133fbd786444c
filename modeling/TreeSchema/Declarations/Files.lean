/-
# TreeSchema.Declarations.Files — declarations from files, and back.

The name of a file says which format it is in.  A directory stands for the files in it that have such
a name, in the order of their names.
-/
import TreeSchema.Declarations
import TreeSchema.Files.Content
import TreeSchema.Files.Path

namespace TreeSchema

open Files

/-- The format that the name of a file announces. -/
def Format.ofPath? (path : String) : Option Format :=
  match Path.extension? path with
  | some "yml" | some "yaml" => some .yaml
  | some "json" => some .json
  | _ => none

namespace Declarations

/-- Reads declarations from a text. -/
def ofText (format : Format) (text : String) : Except LoadError Declarations :=
  match format.readText (fun src t => Declarations.read src t) text with
  | .ok d => .ok d
  | .error why => .error (.unreadable format why)

/-- The registry of all schemas, or why they do not agree. -/
def registry (d : Declarations) : Except LoadError Registry :=
  match d.toRegistry with
  | .ok r => .ok r
  | .error why => .error (.invalid why)

section

variable {m : Type → Type} [Monad m]

/-- The declarations in one file. -/
def ofFile (fs : Access m) (path : String) : ExceptT LoadError m Declarations :=
  match Format.ofPath? path with
  | some format => readContent fs format (fun src t => Declarations.read src t) path
  | none => throw (.unsupported path)

/-- The declarations in several places, one after the other. -/
def collect (read : String → ExceptT LoadError m Declarations) :
    List String → ExceptT LoadError m (List Declarations)
  | [] => pure []
  | path :: rest => do
    let d ← read path
    let ds ← collect read rest
    pure (d :: ds)

/-- Those of some names in a directory that are names of files of a known format. -/
def known (fs : Access m) (path : String) : List String → ExceptT LoadError m (List String)
  | [] => pure []
  | name :: rest => do
    let entry ← ask (fs.entry? (Path.join path name))
    let others ← known fs path rest
    if entry = some .file ∧ (Format.ofPath? (Path.join path name)).isSome then
      pure (name :: others)
    else pure others

/-- The names of what is in a directory. -/
def namesIn (fs : Access m) (path : String) : ExceptT LoadError m (List String) :=
  ExceptT.mk do
    match ← fs.names path with
    | .error why => pure (.error (.file why))
    | .ok names => pure (.ok names)

/-- The files of a known format in a directory, in the order of their names. -/
def filesIn (fs : Access m) (path : String) : ExceptT LoadError m (List String) := do
  let names ← namesIn fs path
  let files ← known fs path names
  let sorted := files.mergeSort fun a b => !decide (b < a)
  pure (sorted.map (Path.join path))

/-- The declarations in the files of a directory. -/
def ofDirectory (fs : Access m) (path : String) : ExceptT LoadError m Declarations := do
  let files ← filesIn fs path
  let all ← collect (ofFile fs) files
  match mergeAll all with
  | some d => pure d
  | none => throw (.nothingIn path)

/-- The declarations in one place, a file or a directory. -/
def ofPlace (fs : Access m) (path : String) : ExceptT LoadError m Declarations := do
  let entry ← ask (fs.entry? path)
  if entry = some .directory then ofDirectory fs path else ofFile fs path

/-- The declarations in several places, as one set. -/
def ofPlaces (fs : Access m) (paths : List String) : ExceptT LoadError m Declarations := do
  let all ← collect (ofPlace fs) paths
  match mergeAll all with
  | some d => pure d
  | none => throw .noSources

/-- Saves declarations in the format that the name of the file announces. -/
def save (fs : Access m) (d : Declarations) (path : String) : ExceptT LoadError m Unit :=
  match Format.ofPath? path with
  | some format => writeContent fs format d.toDocument path
  | none => throw (.unsupported path)

end

end Declarations

end TreeSchema
