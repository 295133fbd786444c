/-
# TreeSchema.Admission — which values a field type takes.

Scalar types look at the value alone.  A reference to a kind takes nodes of that kind or of a kind
that extends it, and only nodes of the same sealed registry: a kind of the same name elsewhere is a
different kind.
-/
import TreeSchema.Value.Render

namespace TreeSchema

namespace Identifier

/-- Whether a value lies in the identifier domain, wrapped or raw. -/
def admits : Value → Bool
  | .identifier _ => true
  | .text s => isIdentifier s
  | _ => false

/-- The identifier with a given text, or the complaint about the text. -/
def ofText (text : String) : Except WrongValue Identifier :=
  match ofText? text with
  | some i => .ok i
  | none => .error ⟨.identifier, Text.quoted text⟩

/-- The identifier that a value is. -/
def ofValue : Value → Except WrongValue Identifier
  | .identifier i => .ok i
  | .text s => ofText s
  | v => .error ⟨.identifier, v.render⟩

end Identifier

namespace Singleton

/-- Whether a value lies in the singleton domain, wrapped or raw. -/
def admits : Value → Bool
  | .singleton _ | .bool _ | .null => true
  | _ => false

/-- The singleton that a value is. -/
def ofValue : Value → Except WrongValue Singleton
  | .singleton s => .ok s
  | .bool b => .ok (ofBool b)
  | .null => .ok null
  | v => .error ⟨.singleton, v.render⟩

end Singleton

/-- Whether a scalar type takes a value.  References to kinds take nothing here: without a sealed
registry no node can belong. -/
def FieldType.admitsScalar : FieldType → Value → Bool
  | identifier, v => Identifier.admits v
  | singleton, v => Singleton.admits v
  | text, .text _ | text, .identifier _ => true
  | int, .int _ => true
  | float, .float _ => true
  | _, _ => false

/-- Whether a type takes a value in a sealed registry. -/
def FieldType.admits (home : Sealed) : FieldType → Value → Bool
  | node kind, .node n => decide (n.home = home) && home.registry.isA n.kind kind
  | t, v => t.admitsScalar v

/-- Whether one of the accepted types takes a value. -/
def FieldSpec.admits (home : Sealed) (f : FieldSpec) (v : Value) : Bool :=
  f.types.any fun t => t.admits home v

end TreeSchema
