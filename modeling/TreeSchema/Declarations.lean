/-
# TreeSchema.Declarations — sets of declared kinds.

A set has a format version, a name perhaps, and schemas in order.  Merging keeps the first set's
version and name and appends the schemas of the others.
-/
import TreeSchema.NodeSchema.Document
import TreeSchema.NodeSchema.Reading

namespace TreeSchema

open Reading

/-- A set of declared kinds. -/
structure Declarations where
  version : String
  name : Option String
  nodes : List NodeSchema
deriving DecidableEq, Inhabited

namespace Declarations

/-- A set without kinds. -/
def empty (version : String) : Declarations := ⟨version, none, []⟩

/-- The first schema of a kind. -/
def get? (d : Declarations) (kind : String) : Option NodeSchema :=
  d.nodes.find? fun s => s.kind = kind

/-- The kinds in order, repetitions included. -/
def kinds (d : Declarations) : List String := d.nodes.map NodeSchema.kind

/-- Appends the schemas of another set. -/
def merge (d other : Declarations) : Declarations := { d with nodes := d.nodes ++ other.nodes }

/-- All sets as one, or nothing if there are none. -/
def mergeAll : List Declarations → Option Declarations
  | [] => none
  | d :: rest => some (rest.foldl merge d)

/-- The registry of all schemas, validated but still open. -/
def toRegistry (d : Declarations) : Except TreeError Registry :=
  match Registry.empty.registerAll d.nodes with
  | .error e => .error e
  | .ok r =>
    match r.validate with
    | .ok () => .ok r
    | .error e => .error e

/-- The set as a document. -/
def toDocument (d : Declarations) : Document :=
  .record
    ([("version", .text d.version)] ++ Document.optional "name" d.name
      ++ [("nodes", .list (d.nodes.map NodeSchema.toDocument))])

/-! ## Reading -/

/-- A set under construction. -/
structure Draft where
  version : Option String := none
  name : Option (Option String) := none
  nodes : Option (List NodeSchema) := none

/-- The set, or the first field that is missing. -/
def Draft.finish (d : Draft) : Except String Declarations :=
  match d.version with
  | some version => .ok { version, name := d.name.getD none, nodes := d.nodes.getD [] }
  | none => .error "version"

section

variable {m : Type → Type} [Monad m] [MonadExceptOf Fault m] {T : Type}

/-- The fields of a set. -/
def parts (src : Source m T) : List (Part m T Draft) :=
  [ { name := "version", isTaken := fun d => d.version.isSome
      read := fun t d => do
        let v ← readText src t
        pure { d with version := some v } },
    { name := "name", isTaken := fun d => d.name.isSome
      read := fun t d => do
        let v ← src.option (readText src) t
        pure { d with name := some v } },
    { name := "nodes", isTaken := fun d => d.nodes.isSome
      read := fun t d => do
        let v ← src.list (NodeSchema.read src) t
        pure { d with nodes := some v } } ]

/-- A set of declared kinds. -/
def read (src : Source m T) : T → m Declarations :=
  readRecord src "Declarations" (parts src) {} Draft.finish

end

end Declarations

end TreeSchema
