/-
# TreeSchema.Value.Render — values as text.

Values are written like literals: text in single quotes, sequences in brackets, a node as its kind
with every field and what the field holds.
-/
import TreeSchema.Decimal.Written
import TreeSchema.Text.Quoted
import TreeSchema.Value

namespace TreeSchema

mutual

/-- A value as text. -/
def Value.render : Value → String
  | .null => "None"
  | .bool true => "True"
  | .bool false => "False"
  | .int n => toString n.toInt
  | .float x => x.written .value
  | .text s => Text.quoted s
  | .identifier i => i.render
  | .singleton s => s.render
  | .seq items => "[" ++ ", ".intercalate (Value.renderList items) ++ "]"
  | .node n => Node.render n

/-- The elements of a sequence as texts. -/
def Value.renderList : List Value → List String
  | [] => []
  | v :: vs => Value.render v :: Value.renderList vs

/-- What a field holds as text. -/
def Slot.render : Slot → String
  | .unset => "<unset>"
  | .single v => Value.render v
  | .many items => "[" ++ ", ".intercalate (Value.renderList items) ++ "]"

/-- Fields with what they hold as texts. -/
def Slot.renderFields : List FieldSpec → List Slot → List String
  | f :: fs, s :: ss => (f.name ++ "=" ++ Slot.render s) :: Slot.renderFields fs ss
  | _, _ => []

/-- A node as text. -/
def Node.render : Node → String
  | .mk _ schema slots =>
    schema.kind ++ "(" ++ ", ".intercalate (Slot.renderFields schema.fields slots) ++ ")"

end

end TreeSchema
