/-
# TreeSchema.Node.Completeness — finishing nodes and trees.

While a tree grows its nodes may lack required values.  Finishing a node names every field that still
lacks one; finishing a tree goes depth-first and reports the first unfinished node with its path.
-/
import TreeSchema.Node

namespace TreeSchema

namespace Node

/-- The fields that still lack a required value, in the order of the schema. -/
def missing (n : Node) : List String :=
  (n.fields.filter fun p => !p.1.multiplicity.isSatisfiedBy p.2).map fun p => p.1.name

/-- Checks the fields of one node; its sub-nodes are not looked at. -/
def finalize (n : Node) : Except TreeError Unit :=
  if n.missing.isEmpty then .ok () else .error (.incomplete n.kind n.missing)

end Node

/-- The step of a path to an element of a sequence field. -/
def elementStep (field : String) (i : Nat) : String :=
  field ++ "[" ++ toString i ++ "]"

mutual

/-- Checks a node, then its sub-nodes field by field.  A failure of the node itself is reported as
it is, a failure further down with the path from this node. -/
def Node.finalizeTree : Node → Except TreeError Unit
  | .mk home schema slots =>
    match (Node.mk home schema slots).finalize with
    | .error e => .error e
    | .ok () => Slot.finalizeFields schema.fields slots

/-- Checks the sub-nodes of fields in order. -/
def Slot.finalizeFields : List FieldSpec → List Slot → Except TreeError Unit
  | f :: fs, s :: ss =>
    match Slot.finalizeIn f.name s with
    | .error e => .error e
    | .ok () => Slot.finalizeFields fs ss
  | _, _ => .ok ()

/-- Checks the sub-nodes that one field holds. -/
def Slot.finalizeIn (field : String) : Slot → Except TreeError Unit
  | .single (.node child) =>
    match Node.finalizeTree child with
    | .error e => .error (e.within field)
    | .ok () => .ok ()
  | .many items => Value.finalizeItems field 0 items
  | _ => .ok ()

/-- Checks the sub-nodes among the elements of a sequence field, counted from `i`. -/
def Value.finalizeItems (field : String) (i : Nat) : List Value → Except TreeError Unit
  | [] => .ok ()
  | .node child :: rest =>
    match Node.finalizeTree child with
    | .error e => .error (e.within (elementStep field i))
    | .ok () => Value.finalizeItems field (i + 1) rest
  | _ :: rest => Value.finalizeItems field (i + 1) rest

end

end TreeSchema
