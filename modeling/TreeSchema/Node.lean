/-
# TreeSchema.Node — making and changing nodes.

Every write is judged before it happens, so a refused write leaves no trace: an operation answers
with the changed node or with an error and no node at all.
-/
import TreeSchema.Admission

namespace TreeSchema

/-- The first field with a name, and its place. -/
def NodeSchema.locate? (s : NodeSchema) (name : String) : Option (FieldSpec × Nat) :=
  (s.position? name).bind fun i => s.fields[i]?.map fun f => (f, i)

namespace Node

/-- A node of a schema with nothing written into it. -/
def fresh (home : Sealed) (schema : NodeSchema) : Node :=
  .mk home schema (schema.fields.map fun f => f.multiplicity.defaultSlot)

/-- The node with one slot replaced. -/
def putSlot (n : Node) (i : Nat) (slot : Slot) : Node :=
  .mk n.home n.schema (n.slots.set i slot)

/-- The slot at a place. -/
def slotAt (n : Node) (i : Nat) : Slot := n.slots.getD i .unset

/-- The field with a name and its place, or the complaint that there is none. -/
def locate (n : Node) (field : String) : Except TreeError (FieldSpec × Nat) :=
  match n.schema.locate? field with
  | some p => .ok p
  | none => .error (.unknownField n.kind field)

/-- What a field holds. -/
def get (n : Node) (field : String) : Except TreeError Slot :=
  (n.locate field).map fun p => n.slotAt p.2

/-- The refusal of a value for a field. -/
def refusal (n : Node) (f : FieldSpec) (v : Value) (reason : Mismatch) : TreeError :=
  .wrongType ⟨n.kind, f.name, v.render, reason⟩

/-- Whether a value may be an element of a sequence field. -/
def takesElement (home : Sealed) (f : FieldSpec) (v : Value) : Bool :=
  !v.isSeq && f.admits home v

/-- The first element that a sequence field does not take, with its position. -/
def firstRefused? (home : Sealed) (f : FieldSpec) (items : List Value) : Option (Value × Nat) :=
  items.zipIdx.find? fun p => !takesElement home f p.1

/-- What a field would hold after a write.

A single-valued field takes one admitted value that is not a sequence.  A sequence field takes a
sequence whose every element is admitted and is not itself a sequence. -/
def accept (n : Node) (f : FieldSpec) (v : Value) : Except TreeError Slot :=
  if f.multiplicity.isSequence then
    match v with
    | .seq items =>
      match firstRefused? n.home f items with
      | some (item, i) => .error (n.refusal f item (.elementNotAdmitted i f.typeNames))
      | none => .ok (.many items)
    | _ => .error (n.refusal f v .expectedSequence)
  else if v.isSeq then .error (n.refusal f v .expectedSingle)
  else if f.admits n.home v then .ok (.single v)
  else .error (n.refusal f v (.notAdmitted f.typeNames))

/-- Writes a value into the field at a place. -/
def write (n : Node) (p : FieldSpec × Nat) (v : Value) : Except TreeError Node :=
  (n.accept p.1 v).map fun slot => n.putSlot p.2 slot

/-- Replaces what a field holds. -/
def set (n : Node) (field : String) (v : Value) : Except TreeError Node :=
  match n.locate field with
  | .ok p => n.write p v
  | .error e => .error e

/-- The elements of the sequence field at a place. -/
def elementsAt (n : Node) (i : Nat) : List Value := (n.slotAt i).asMany?.getD []

/-- Appends an element to a sequence field. -/
def push (n : Node) (field : String) (v : Value) : Except TreeError Node :=
  match n.locate field with
  | .error e => .error e
  | .ok (f, i) =>
    if f.multiplicity.isSequence then
      if takesElement n.home f v then .ok (n.putSlot i ((n.slotAt i).append v))
      else .error (n.refusal f v (.elementNotAdmitted (n.elementsAt i).length f.typeNames))
    else .error (n.refusal f v .expectedSequence)

/-- Takes a field back to what a fresh node holds. -/
def clear (n : Node) (field : String) : Except TreeError Node :=
  (n.locate field).map fun p => n.putSlot p.2 p.1.multiplicity.defaultSlot

/-- Edits the sub-node of a single-valued field.

The edit may do anything to the child, so the child is judged again afterwards, and an edit that
leaves a child the field does not take is refused.  Without a sub-node there is nothing to edit and
the answer is `none`. -/
def editChild {α : Type} (n : Node) (field : String) (edit : Node → α × Node) :
    Except TreeError (Option α × Node) :=
  match n.locate field with
  | .error e => .error e
  | .ok (f, i) =>
    match n.slotAt i with
    | .single (.node child) =>
      let (answer, edited) := edit child
      if f.admits n.home (.node edited) then
        .ok (some answer, n.putSlot i (.single (.node edited)))
      else .error (n.refusal f (.node edited) (.notAdmitted f.typeNames))
    | _ => .ok (none, n)

end Node

end TreeSchema
