/-
# TreeSchema.NodeSchema.Document — schemas as documents.

Entries stand in a fixed order and absent descriptions and parents are left out, so equal schemas
have equal documents.
-/
import TreeSchema.Document
import TreeSchema.NodeSchema

namespace TreeSchema

/-- A field declaration as a document. -/
def FieldSpec.toDocument (f : FieldSpec) : Document :=
  .record
    ([("name", .text f.name),
      ("types", .list (f.types.map fun t => .text t.name)),
      ("multiplicity", .text f.multiplicity.code)]
      ++ Document.optional "description" f.description)

/-- A schema as a document. -/
def NodeSchema.toDocument (s : NodeSchema) : Document :=
  .record
    ([("kind", .text s.kind)] ++ Document.optional "extends" s.parent
      ++ Document.optional "description" s.description
      ++ [("fields", .list (s.fields.map FieldSpec.toDocument))])

end TreeSchema
