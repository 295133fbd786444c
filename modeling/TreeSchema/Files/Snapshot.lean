/-
# TreeSchema.Files.Snapshot — a file system held in memory.

A snapshot holds what is in one directory, the one that relative paths start from.  What lies outside
it is empty: a path that leaves it finds directories there and nothing in them.
-/
import TreeSchema.Files.Access
import TreeSchema.Files.Path

namespace TreeSchema.Files

/-- A place counted from the root, innermost name first.  The directory that relative paths start
from has the empty name, which no path can spell. -/
abbrev Location := List String

/-- Files and directories by their places. -/
structure Snapshot where
  files : List (Location × ByteArray)
  directories : List Location

namespace Snapshot

/-- The place that relative paths start from. -/
def home : Location := [""]

/-- The snapshot that holds nothing. -/
def empty : Snapshot := ⟨[], [[], home]⟩

/-- The content of a file. -/
def file? (s : Snapshot) (here : Location) : Option ByteArray := s.files.lookup here

/-- Whether a place is a directory. -/
def hasDirectory (s : Snapshot) (here : Location) : Bool := s.directories.contains here

/-- The longest name that a file may have, in bytes. -/
def nameLimit : Nat := 255

/-- The longest path that is looked up, in bytes. -/
def pathLimit : Nat := 4095

/-- One step from a place that has to be a directory. -/
def descend (s : Snapshot) (here : Location) (name : String) : Except Refused Location :=
  if s.hasDirectory here then
    if name = "." then .ok here
    else if name = ".." then .ok (here.drop 1)
    else if nameLimit < name.utf8ByteSize then .error .nameTooLong
    else .ok (name :: here)
  else if (s.file? here).isSome then .error .notDirectory
  else .error .notFound

/-- Steps from a place. -/
def walk (s : Snapshot) : Location → List String → Except Refused Location
  | here, [] => .ok here
  | here, name :: rest =>
    match s.descend here name with
    | .ok next => walk s next rest
    | .error e => .error e

/-- A path as a file system takes it apart. -/
structure Route where
  start : Location
  steps : List String
  /-- Whether a slash follows the last name. -/
  closed : Bool

/-- The route of a path; some texts are no path at all. -/
def route (path : String) : Except Refused Route :=
  if path.toList.contains '\x00' then .error .zeroInName
  else if path.isEmpty then .error .notFound
  else if pathLimit < path.utf8ByteSize then .error .nameTooLong
  else
    let steps := ((Path.pieces path.toList).filter fun p => !p.isEmpty).map String.ofList
    .ok
      { start := if Path.isAbsolute path then [] else home
        steps, closed := path.toList.getLast? == some '/' }

/-- The place that a path leads to, whether or not anything is there. -/
def locate (s : Snapshot) (path : String) : Except Refused Location := do
  let r ← route path
  let found ← s.walk r.start r.steps
  if r.closed && (s.file? found).isSome then .error .notDirectory else .ok found

/-- What a path leads to. -/
def entry? (s : Snapshot) (path : String) : Option Entry :=
  match s.locate path with
  | .ok found =>
    if s.hasDirectory found then some .directory
    else if (s.file? found).isSome then some .file
    else none
  | .error _ => none

/-- Opens what a path leads to. -/
def fetch (s : Snapshot) (path : String) : Except Refused Opened := do
  let found ← s.locate path
  if s.hasDirectory found then .ok .directory
  else
    match s.file? found with
    | some content => .ok (.file content)
    | none => .error .notFound

/-- The text of the file that a path leads to. -/
def text? (s : Snapshot) (path : String) : Option String :=
  match s.fetch path with
  | .ok (.file content) => String.fromUTF8? content
  | _ => none

/-- The names of what is in the directory that a path leads to. -/
def names (s : Snapshot) (path : String) : Except Refused (List String) := do
  let found ← s.locate path
  if s.hasDirectory found then
    .ok
      ((s.files.map Prod.fst ++ s.directories).filterMap fun place =>
        match place with
        | name :: outer => if outer = found then some name else none
        | [] => none)
  else if (s.file? found).isSome then .error .notDirectory
  else .error .notFound

/-- The snapshot with a file put at a place. -/
def put (s : Snapshot) (here : Location) (content : ByteArray) : Snapshot :=
  { s with files := s.files.filter (fun f => f.1 != here) ++ [(here, content)] }

/-- Creates the file that a path leads to, or replaces its content. -/
def store (s : Snapshot) (path : String) (content : ByteArray) : Except Refused Snapshot := do
  let r ← route path
  let outer ← s.walk r.start r.steps.dropLast
  match r.steps.getLast? with
  | none => .error .isDirectory
  | some name =>
    let found ← s.descend outer name
    if r.closed || s.hasDirectory found then .error .isDirectory
    else .ok (s.put found content)

/-- A snapshot as a file system that changes as it is written to. -/
def access : Access (StateM Snapshot) where
  entry? path := do
    let s ← get
    pure (s.entry? path)
  fetch path := do
    let s ← get
    pure (s.fetch path)
  names path := do
    let s ← get
    pure (s.names path)
  store path content := do
    let s ← get
    match s.store path content.toUTF8 with
    | .ok s => do
      set s
      pure (.ok ())
    | .error e => pure (.error e)

/-! ## Making snapshots -/

/-- Adds the directories on the way to a place, and the place itself. -/
def addDirectories (s : Snapshot) : Location → Snapshot
  | [] => s
  | name :: outer =>
    let s := s.addDirectories outer
    if s.directories.contains (name :: outer) then s
    else { s with directories := s.directories ++ [name :: outer] }

/-- The place of a path inside the snapshot. -/
def placeOf (path : String) : Location :=
  ((Path.components path).map String.ofList).reverse ++ home

/-- Adds a directory with everything that leads to it. -/
def withDirectory (s : Snapshot) (path : String) : Snapshot := s.addDirectories (placeOf path)

/-- Adds a file with everything that leads to it. -/
def withFile (s : Snapshot) (path : String) (content : ByteArray) : Snapshot :=
  let place := placeOf path
  (s.addDirectories (place.drop 1)).put place content

end Snapshot

end TreeSchema.Files
