/-
# TreeSchema.Registry — the declared kinds and how they extend each other.

A registry grows by registering schemas, each of which is judged on its own; what schemas say about
each other is judged once, by `validate`, so that declarations may come in any order.  Sealing keeps
the evidence of that judgement.
-/
import TreeSchema.Error
import TreeSchema.Identifier
import TreeSchema.NodeSchema

namespace TreeSchema

/-- Schemas in order of registration, and an index from each kind to its place. -/
structure Registry where
  schemas : List NodeSchema
  /-- The kinds, newest first, each with its place among the schemas. -/
  index : List (String × Nat)
deriving DecidableEq

namespace Registry

/-- The registry without kinds. -/
def empty : Registry := ⟨[], []⟩

instance : Inhabited Registry := ⟨empty⟩

/-- The number of kinds. -/
def size (r : Registry) : Nat := r.schemas.length

/-- The kinds in order of registration. -/
def kinds (r : Registry) : List String := r.schemas.map NodeSchema.kind

/-- The place of a kind among the schemas. -/
def place? (r : Registry) (kind : String) : Option Nat := r.index.lookup kind

/-- Whether a kind is registered. -/
def contains (r : Registry) (kind : String) : Bool := (r.place? kind).isSome

/-- The schema of a kind. -/
def get? (r : Registry) (kind : String) : Option NodeSchema :=
  (r.place? kind).bind fun i => r.schemas[i]?

/-- The schema of a kind, or the complaint that there is none. -/
def schema (r : Registry) (kind : String) : Except TreeError NodeSchema :=
  match r.get? kind with
  | some s => .ok s
  | none => .error (.unknownKind kind)

/-! ## Registering -/

/-- The first thing wrong with the fields of a schema, given the names before them: a name that is
no identifier, a name used before, or a field without types. -/
def fieldFault? (kind : String) : (seen : List String) → List FieldSpec → Option TreeError
  | _, [] => none
  | seen, f :: rest =>
    if !isIdentifier f.name then some (.invalidName f.name)
    else if seen.contains f.name then some (.duplicateField kind f.name)
    else if f.types.isEmpty then some (.emptyTypeSet kind f.name)
    else fieldFault? kind (f.name :: seen) rest

/-- The first reason not to register a schema.  Only what the schema alone shows is judged, apart
from the kind being new. -/
def fault? (r : Registry) (s : NodeSchema) : Option TreeError :=
  if !isIdentifier s.kind || FieldType.isBuiltinName s.kind then some (.invalidName s.kind)
  else if r.contains s.kind then some (.duplicateKind s.kind)
  else
    match s.parent.filter fun p => !isIdentifier p with
    | some p => some (.invalidName p)
    | none => fieldFault? s.kind [] s.fields

/-- Adds a schema after the others. -/
def register (r : Registry) (s : NodeSchema) : Except TreeError Registry :=
  match r.fault? s with
  | some e => .error e
  | none => .ok ⟨r.schemas ++ [s], (s.kind, r.schemas.length) :: r.index⟩

/-- Registers schemas in order, up to the first that is refused. -/
def registerAll (r : Registry) : List NodeSchema → Except TreeError Registry
  | [] => .ok r
  | s :: rest =>
    match r.register s with
    | .ok r' => registerAll r' rest
    | .error e => .error e

/-! ## The hierarchy of kinds -/

/-- The declared parent of a registered kind; the parent itself need not be registered. -/
def parent? (r : Registry) (kind : String) : Option String :=
  (r.get? kind).bind NodeSchema.parent

/-- Whether `ancestor` is met within a number of steps up from `kind`. -/
def isAWithin (r : Registry) (ancestor : String) : (steps : Nat) → (kind : String) → Bool
  | 0, kind => kind == ancestor
  | steps + 1, kind =>
    kind == ancestor ||
      match r.parent? kind with
      | some p => isAWithin r ancestor steps p
      | none => false

/-- Whether a kind is an ancestor or extends it, directly or not.  A chain without repetition has at
most one step for each registered kind, so no ancestor lies further up. -/
def isA (r : Registry) (kind ancestor : String) : Bool :=
  r.isAWithin ancestor r.size kind

/-- Whether a chain of registered kinds goes on for a number of steps up from `kind`. -/
def goesOn (r : Registry) : (steps : Nat) → (kind : String) → Bool
  | 0, kind => r.contains kind
  | steps + 1, kind =>
    match r.parent? kind with
    | some p => goesOn r steps p
    | none => false

/-- Whether the chain up from a kind never ends: it outlasts the number of kinds. -/
def isEndless (r : Registry) (kind : String) : Bool :=
  r.goesOn r.size kind

/-! ## Validation -/

/-- The first kind that a schema refers to and that is not registered. -/
def dangling? (r : Registry) (s : NodeSchema) : Option String :=
  s.references.find? fun k => !r.contains k

/-- The first fault between schemas: an unregistered reference, else an endless parent chain. -/
def validate (r : Registry) : Except TreeError Unit :=
  match r.schemas.findSome? fun s => (r.dangling? s).map (TreeError.danglingReference s.kind) with
  | some e => .error e
  | none =>
    match r.schemas.find? fun s => r.isEndless s.kind with
    | some s => .error (.inheritanceCycle s.kind)
    | none => .ok ()

end Registry

/-! ## Sealed registries -/

/-- A validated registry that no longer changes.  Two sealings are two registries, even of the same
schemas; the stamp tells them apart. -/
structure Sealed where
  stamp : Nat
  registry : Registry
  valid : registry.validate = .ok ()
deriving DecidableEq

/-- Seals a registry that passes validation. -/
def Registry.seal (r : Registry) (stamp : Nat) : Except TreeError Sealed :=
  match h : r.validate with
  | .ok () => .ok ⟨stamp, r, h⟩
  | .error e => .error e

end TreeSchema
