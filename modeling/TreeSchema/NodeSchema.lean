/-
# TreeSchema.NodeSchema — the declared shape of one kind of node.

A schema lists its fields in order; each field has a name, the types it accepts and a multiplicity.
Schemas only declare: what a value must satisfy is decided where it is written into a node.
-/
import TreeSchema.FieldType
import TreeSchema.Multiplicity

namespace TreeSchema

/-- The declaration of one field. -/
structure FieldSpec where
  name : String
  /-- A value must be a member of one of these. -/
  types : List FieldType
  multiplicity : Multiplicity
  description : Option String
deriving DecidableEq, Inhabited

/-- The accepted types, separated by bars. -/
def FieldSpec.typeNames (f : FieldSpec) : String :=
  " | ".intercalate (f.types.map FieldType.name)

/-- A field on one line.  Several types are bracketed when a multiplicity mark follows them. -/
def FieldSpec.render (f : FieldSpec) : String :=
  let mark := f.multiplicity.suffix
  if 1 < f.types.length ∧ mark ≠ "" then f.name ++ ": (" ++ f.typeNames ++ ")" ++ mark
  else f.name ++ ": " ++ f.typeNames ++ mark

/-- The declaration of one kind of node. -/
structure NodeSchema where
  kind : String
  /-- The kind whose place this kind may take. -/
  parent : Option String
  description : Option String
  fields : List FieldSpec
deriving DecidableEq, Inhabited

namespace NodeSchema

/-- The first field with a name. -/
def field? (s : NodeSchema) (name : String) : Option FieldSpec :=
  s.fields.find? fun f => f.name = name

/-- The place of the first field with a name. -/
def position? (s : NodeSchema) (name : String) : Option Nat :=
  s.fields.findIdx? fun f => f.name = name

/-- The names of the fields, in order. -/
def fieldNames (s : NodeSchema) : List String :=
  s.fields.map FieldSpec.name

/-- The kinds that the field types refer to, in order of declaration. -/
def fieldTargets (s : NodeSchema) : List String :=
  s.fields.flatMap fun f => f.types.filterMap FieldType.target?

/-- The kinds that a schema refers to: its parent, then the targets of its fields. -/
def references (s : NodeSchema) : List String :=
  s.parent.toList ++ s.fieldTargets

/-- A schema as text: the kind, its parent in brackets, and a line for each field. -/
def render (s : NodeSchema) : String :=
  s.kind ++ (match s.parent with | some p => "(" ++ p ++ ")" | none => "") ++ ":"
    ++ String.join (s.fields.map fun f => "\n    " ++ f.render)

end NodeSchema

end TreeSchema
