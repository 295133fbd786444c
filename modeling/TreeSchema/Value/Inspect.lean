/-
# TreeSchema.Value.Inspect — values with their structure laid open.

Where `render` writes wrapped and raw values alike, inspection names every constructor, so that two
values that differ in anything differ in their inspection.
-/
import TreeSchema.Decimal.Written
import TreeSchema.Text.Escaped
import TreeSchema.Value

namespace TreeSchema

/-- An identifier with its structure. -/
def Identifier.inspect (i : Identifier) : String :=
  "Identifier(" ++ Text.escaped i.text ++ ")"

/-- A singleton with its structure. -/
def Singleton.inspect (s : Singleton) : String :=
  match s.value with
  | some b => "Singleton(Some(" ++ toString b ++ "))"
  | none => "Singleton(None)"

mutual

/-- A value with its structure. -/
def Value.inspect : Value → String
  | .null => "Null"
  | .bool b => "Bool(" ++ toString b ++ ")"
  | .int n => "Int(" ++ toString n.toInt ++ ")"
  | .float x => "Float(" ++ x.written .value ++ ")"
  | .text s => "Text(" ++ Text.escaped s ++ ")"
  | .identifier i => "Identifier(" ++ i.inspect ++ ")"
  | .singleton s => "Singleton(" ++ s.inspect ++ ")"
  | .seq items => "Seq([" ++ ", ".intercalate (Value.inspectList items) ++ "])"
  | .node n => "Node(" ++ Node.inspect n ++ ")"

/-- The elements of a sequence with their structure. -/
def Value.inspectList : List Value → List String
  | [] => []
  | v :: vs => Value.inspect v :: Value.inspectList vs

/-- What a field holds, with its structure. -/
def Slot.inspect : Slot → String
  | .unset => "Unset"
  | .single v => "Single(" ++ Value.inspect v ++ ")"
  | .many items => "Many([" ++ ", ".intercalate (Value.inspectList items) ++ "])"

/-- Slots with their structure. -/
def Slot.inspectList : List Slot → List String
  | [] => []
  | s :: ss => Slot.inspect s :: Slot.inspectList ss

/-- A node with its structure. -/
def Node.inspect : Node → String
  | .mk _ schema slots =>
    "Node \x7b kind: " ++ Text.escaped schema.kind ++ ", slots: ["
      ++ ", ".intercalate (Slot.inspectList slots) ++ "] \x7d"

end

end TreeSchema
