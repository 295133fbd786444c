/-
# TreeSchema.Registry.InPlace — registering in a registry where it stands.

A registry under construction is one thing that every call works on, and whatever a call has done by the
time it fails stays done.  A schema is judged before anything is entered; then its kind goes into the index
and the schema behind the others, so that for a moment the index is ahead.
-/
import TreeSchema.Registry

namespace TreeSchema.Registry

/-- Work on a registry in place.  The registry is there afterwards whatever the answer, and an error
takes nothing back. -/
abbrev InPlace (α : Type) := ExceptT TreeError (StateM Registry) α

namespace InPlace

/-- Enters a kind in the index, for the schema that comes next. -/
def enterKind (kind : String) : InPlace Unit :=
  modify fun r => { r with index := (kind, r.schemas.length) :: r.index }

/-- Puts a schema behind the others. -/
def putSchema (s : NodeSchema) : InPlace Unit :=
  modify fun r => { r with schemas := r.schemas ++ [s] }

/-- Adds a schema after the others. -/
def register (s : NodeSchema) : InPlace Unit := do
  let r ← get
  match r.fault? s with
  | some e => throw e
  | none => do
    enterKind s.kind
    putSchema s

/-- Registers one schema after the other and answers each call; a refused call does not end the row. -/
def registerEach (calls : List NodeSchema) : StateM Registry (List (Except TreeError Unit)) :=
  calls.mapM fun s => (register s).run

end InPlace

end TreeSchema.Registry
