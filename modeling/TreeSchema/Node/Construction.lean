/-
# TreeSchema.Node.Construction — nodes made with their values.

Positional values fill the fields in order; named values fill any field that is still free.  All of
them pass through the same judgement as a later write.
-/
import TreeSchema.Node

namespace TreeSchema

namespace Node

/-- Writes positional values into fields from left to right. -/
def fillPositional (n : Node) : List (FieldSpec × Nat) → List Value → Except TreeError Node
  | p :: ps, v :: vs =>
    match n.write p v with
    | .ok n' => fillPositional n' ps vs
    | .error e => .error e
  | _, _ => .ok n

/-- Writes named values in order; the places in `filled` are taken. -/
def fillNamed (n : Node) (filled : List Nat) : List (String × Value) → Except TreeError Node
  | [] => .ok n
  | (name, v) :: rest =>
    match n.locate name with
    | .error e => .error e
    | .ok p =>
      if filled.contains p.2 then .error (.duplicateValue n.kind name)
      else
        match n.write p v with
        | .ok n' => fillNamed n' (p.2 :: filled) rest
        | .error e => .error e

end Node

namespace Sealed

/-- A fresh node of a kind. -/
def node (home : Sealed) (kind : String) : Except TreeError Node :=
  (home.registry.schema kind).map fun schema => Node.fresh home schema

/-- A node of a kind with positional values, then named ones. -/
def build (home : Sealed) (kind : String) (positional : List Value)
    (named : List (String × Value)) : Except TreeError Node :=
  match home.node kind with
  | .error e => .error e
  | .ok n =>
    let fields := n.schema.fields
    if fields.length < positional.length then
      .error (.tooManyValues kind fields.length positional.length)
    else
      match n.fillPositional fields.zipIdx positional with
      | .error e => .error e
      | .ok n' => n'.fillNamed (List.range positional.length) named

/-- A node with positional values only. -/
def construct (home : Sealed) (kind : String) (values : List Value) : Except TreeError Node :=
  home.build kind values []

/-- A node with named values only. -/
def constructWith (home : Sealed) (kind : String) (values : List (String × Value)) :
    Except TreeError Node :=
  home.build kind [] values

end Sealed

end TreeSchema
