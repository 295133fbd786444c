/-
# TreeSchema.Value — values, the slots that hold them, and nodes.

A node belongs to a sealed registry, follows one of its schemas and holds one slot for each field.
Text is never a sequence; only `Value.seq` is.
-/
import TreeSchema.Decimal.Binary64
import TreeSchema.Registry
import TreeSchema.Singleton

namespace TreeSchema

mutual

/-- What may be written into a field. -/
inductive Value where
  | null
  | bool (b : Bool)
  | int (n : Int64)
  | float (x : Decimal.Binary64)
  | text (s : String)
  | identifier (i : Identifier)
  | singleton (s : Singleton)
  /-- An explicit ordered sequence. -/
  | seq (items : List Value)
  | node (n : Node)

/-- What a field holds. -/
inductive Slot where
  /-- A single-valued field that holds nothing. -/
  | unset
  | single (v : Value)
  /-- A sequence field; it holds a sequence from the start. -/
  | many (items : List Value)

/-- A node of a sealed registry, with a slot for each field of its schema. -/
inductive Node where
  | mk (home : Sealed) (schema : NodeSchema) (slots : List Slot)

end

instance : Inhabited Value := ⟨.null⟩
instance : Inhabited Slot := ⟨.unset⟩

namespace Node

/-- The registry that a node was made from. -/
def home : Node → Sealed
  | mk home _ _ => home

/-- The schema that a node follows. -/
def schema : Node → NodeSchema
  | mk _ schema _ => schema

/-- What the fields hold, in the order of the schema. -/
def slots : Node → List Slot
  | mk _ _ slots => slots

/-- The kind of a node. -/
def kind (n : Node) : String := n.schema.kind

/-- The fields with what they hold. -/
def fields (n : Node) : List (FieldSpec × Slot) := n.schema.fields.zip n.slots

end Node

namespace Value

/-- The name of a value's type in a diagnostic; for a node, its kind. -/
def typeName : Value → String
  | null => "None"
  | bool _ => "bool"
  | int _ => "int"
  | float _ => "float"
  | text _ => "text"
  | identifier _ => "identifier"
  | singleton _ => "singleton"
  | seq _ => "sequence"
  | node n => n.kind

/-- Whether a value is a sequence. -/
def isSeq : Value → Bool
  | seq _ => true
  | _ => false

/-- The text of a text or identifier. -/
def asText? : Value → Option String
  | text s => some s
  | identifier i => some i.text
  | _ => none

/-- A boolean, null or singleton, as a singleton. -/
def asSingleton? : Value → Option Singleton
  | null => some .null
  | bool b => some (.ofBool b)
  | singleton s => some s
  | _ => none

/-- The elements of a sequence. -/
def asSeq? : Value → Option (List Value)
  | seq items => some items
  | _ => none

/-- The sub-node that a value is. -/
def asNode? : Value → Option Node
  | node n => some n
  | _ => none

end Value

namespace Slot

/-- Whether a field holds something; a sequence field always does. -/
def isSet : Slot → Bool
  | unset => false
  | _ => true

/-- The value of a single-valued field. -/
def asSingle? : Slot → Option Value
  | single v => some v
  | _ => none

/-- The elements of a sequence field. -/
def asMany? : Slot → Option (List Value)
  | many items => some items
  | _ => none

/-- The sequence with one more element.  A slot that holds no sequence stays as it is. -/
def append : Slot → Value → Slot
  | many items, v => many (items ++ [v])
  | slot, _ => slot

end Slot

namespace Multiplicity

/-- What a fresh node holds. -/
def defaultSlot (m : Multiplicity) : Slot :=
  if m.isSequence then .many [] else .unset

/-- Whether what a field holds is enough for a finished node. -/
def isSatisfiedBy : Multiplicity → Slot → Bool
  | needed, slot => slot.isSet
  | oneOrMore, slot => slot.asMany?.any fun items => !items.isEmpty
  | optional, _ | zeroOrMore, _ => true

end Multiplicity

/-! ## Equality

Wrapped and raw forms of one text are equal, as are wrapped and raw forms of a boolean or null.
Numbers compare as numbers, so NaN differs from itself.  Nodes are equal when their kinds and slots
are, whatever registries they belong to. -/

mutual

/-- Whether two values are equal. -/
def Value.equals (v w : Value) : Bool :=
  match v.asText?, w.asText? with
  | some a, some b => a == b
  | _, _ =>
    match v.asSingleton?, w.asSingleton? with
    | some a, some b => a == b
    | _, _ =>
      match v, w with
      | .int a, .int b => a == b
      | .float a, .float b => a.equals b
      | .seq xs, .seq ys => Value.listEquals xs ys
      | .node a, .node b => Node.equals a b
      | _, _ => false

/-- Whether two sequences are equal, element by element. -/
def Value.listEquals : List Value → List Value → Bool
  | [], [] => true
  | v :: vs, w :: ws => Value.equals v w && Value.listEquals vs ws
  | _, _ => false

/-- Whether two slots hold equal things. -/
def Slot.equals : Slot → Slot → Bool
  | .unset, .unset => true
  | .single v, .single w => Value.equals v w
  | .many vs, .many ws => Value.listEquals vs ws
  | _, _ => false

/-- Whether two rows of slots are equal, slot by slot. -/
def Slot.listEquals : List Slot → List Slot → Bool
  | [], [] => true
  | s :: ss, t :: ts => Slot.equals s t && Slot.listEquals ss ts
  | _, _ => false

/-- Whether two nodes are of one kind and hold equal things. -/
def Node.equals : Node → Node → Bool
  | .mk _ schema slots, .mk _ schema' slots' =>
    schema.kind == schema'.kind && Slot.listEquals slots slots'

end

/-- Whether a value equals raw text. -/
def Value.equalsText (v : Value) (text : String) : Bool :=
  v.asText? == some text

/-- Whether what a field holds equals a value: a sequence field equals the sequence of its elements,
and an unset field equals nothing. -/
def Slot.equalsValue : Slot → Value → Bool
  | .single v, w => v.equals w
  | .many items, .seq ws => Value.listEquals items ws
  | _, _ => false

/-- Whether a field holds a single value that equals raw text. -/
def Slot.equalsText (slot : Slot) (text : String) : Bool :=
  slot.asSingle?.any fun v => v.equalsText text

end TreeSchema
