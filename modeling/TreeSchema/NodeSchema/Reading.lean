/-
# TreeSchema.NodeSchema.Reading — schemas from structured text.

Each record lists its fields once, in the order in which a missing one is reported.
-/
import TreeSchema.Admission
import TreeSchema.Reading

namespace TreeSchema

open Reading

section

variable {m : Type → Type} [Monad m] [MonadExceptOf Fault m] {T : Type}

/-- A text. -/
def readText (src : Source m T) (t : T) : m String := src.text "a string" t

/-- An identifier; a text that is none is refused. -/
def Identifier.read (src : Source m T) (t : T) : m Identifier := do
  let text ← readText src t
  match Identifier.ofText text with
  | .ok i => pure i
  | .error e => complain (.refused e)

/-- A singleton: a boolean or nothing. -/
def Singleton.read (src : Source m T) (t : T) : m Singleton := do
  let value ← src.option (src.flag "a boolean") t
  pure ⟨value⟩

/-- A multiplicity by its name. -/
def Multiplicity.read (src : Source m T) (t : T) : m Multiplicity := do
  let known := Multiplicity.all.map Multiplicity.code
  let code ← src.variant known t
  match Multiplicity.ofCode? code with
  | some multiplicity => pure multiplicity
  | none => complain (.unknownVariant code known)

/-- A field type by its name. -/
def FieldType.read (src : Source m T) (t : T) : m FieldType := do
  let name ← readText src t
  pure (.ofName name)

/-! ## Field declarations -/

/-- A field declaration under construction. -/
structure FieldSpec.Draft where
  name : Option String := none
  types : Option (List FieldType) := none
  multiplicity : Option Multiplicity := none
  description : Option (Option String) := none

/-- The fields of a field declaration. -/
def FieldSpec.parts (src : Source m T) : List (Part m T FieldSpec.Draft) :=
  [ { name := "name", isTaken := fun d => d.name.isSome
      read := fun t d => do
        let v ← readText src t
        pure { d with name := some v } },
    { name := "types", isTaken := fun d => d.types.isSome
      read := fun t d => do
        let v ← src.list (FieldType.read src) t
        pure { d with types := some v } },
    { name := "multiplicity", isTaken := fun d => d.multiplicity.isSome
      read := fun t d => do
        let v ← Multiplicity.read src t
        pure { d with multiplicity := some v } },
    { name := "description", isTaken := fun d => d.description.isSome
      read := fun t d => do
        let v ← src.option (readText src) t
        pure { d with description := some v } } ]

/-- The field declaration, or the first field that is missing. -/
def FieldSpec.Draft.finish (d : FieldSpec.Draft) : Except String FieldSpec :=
  match d.name, d.types, d.multiplicity with
  | some name, some types, some multiplicity =>
    .ok { name, types, multiplicity, description := d.description.getD none }
  | none, _, _ => .error "name"
  | _, none, _ => .error "types"
  | _, _, none => .error "multiplicity"

/-- A field declaration. -/
def FieldSpec.read (src : Source m T) : T → m FieldSpec :=
  readRecord src "FieldSpec" (FieldSpec.parts src) {} FieldSpec.Draft.finish

/-! ## Schemas -/

/-- A schema under construction. -/
structure NodeSchema.Draft where
  kind : Option String := none
  parent : Option (Option String) := none
  description : Option (Option String) := none
  fields : Option (List FieldSpec) := none

/-- The fields of a schema. -/
def NodeSchema.parts (src : Source m T) : List (Part m T NodeSchema.Draft) :=
  [ { name := "kind", isTaken := fun d => d.kind.isSome
      read := fun t d => do
        let v ← readText src t
        pure { d with kind := some v } },
    { name := "extends", isTaken := fun d => d.parent.isSome
      read := fun t d => do
        let v ← src.option (readText src) t
        pure { d with parent := some v } },
    { name := "description", isTaken := fun d => d.description.isSome
      read := fun t d => do
        let v ← src.option (readText src) t
        pure { d with description := some v } },
    { name := "fields", isTaken := fun d => d.fields.isSome
      read := fun t d => do
        let v ← src.list (FieldSpec.read src) t
        pure { d with fields := some v } } ]

/-- The schema, or the first field that is missing. -/
def NodeSchema.Draft.finish (d : NodeSchema.Draft) : Except String NodeSchema :=
  match d.kind with
  | some kind =>
    .ok { kind, parent := d.parent.getD none, description := d.description.getD none
          fields := d.fields.getD [] }
  | none => .error "kind"

/-- A schema. -/
def NodeSchema.read (src : Source m T) : T → m NodeSchema :=
  readRecord src "NodeSchema" (NodeSchema.parts src) {} NodeSchema.Draft.finish

end

end TreeSchema
