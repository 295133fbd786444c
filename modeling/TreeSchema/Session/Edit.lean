/-
# TreeSchema.Session.Edit — operations on one node.

An edit reads a node or changes it.  Edits of a sub-node are edits again, so a whole path can be
edited in place; whatever an edit on the way refuses is an answer like any other.
-/
import TreeSchema.Node.InPlace
import TreeSchema.Session

namespace TreeSchema

/-- An operation on a node. -/
inductive Edit where
  | set (field : String) (value : Term)
  | push (field : String) (value : Term)
  | clear (field : String)
  | finalize
  | finalizeTree
  /-- Reads nothing and changes nothing. -/
  | look
  | get (field : String)
  /-- Compares what a field holds with a value. -/
  | compare (field : String) (value : Term)
  /-- Edits the sub-node of a single-valued field. -/
  | child (field : String) (edits : List Edit)
  /-- Puts another node in the place of this one. -/
  | replace (value : Term)
  | inspect
  | describe
  /-- An operation that could not be read. -/
  | unreadable

instance : Inhabited Edit := ⟨.unreadable⟩

/-- What an edit answers when it is not refused. -/
inductive Reply where
  | done
  | slot (s : Slot)
  /-- How a field compares with a value, and with raw text if the value is raw text. -/
  | comparison (value : Bool) (text : Option Bool)
  /-- The answers of the edits of a sub-node, or nothing if there is no sub-node. -/
  | edits (answers : Option (List (Except Refusal Reply)))
  | inspection (text : String)
  /-- A node whose fields are to be described. -/
  | description (n : Node)

/-- The answer of a change in place, and the node that the change leaves behind. -/
def Reply.ofChange (change : InPlace Id Unit) (n : Node) : Except Refusal Reply × Node :=
  match Id.run (change.run n) with
  | (.ok (), n') => (.ok .done, n')
  | (.error e, n') => (.error (.tree e), n')

/-- The answer of a check. -/
def Reply.ofCheck : Except TreeError Unit → Except Refusal Reply
  | .ok () => .ok .done
  | .error e => .error (.tree e)

/-- How what a field holds compares with a value. -/
def Reply.ofComparison (slot : Slot) (v : Value) : Reply :=
  .comparison (slot.equalsValue v) <|
    match v with
    | .text s => some (slot.equalsText s)
    | _ => none

mutual

/-- The answer of an edit and the node after it.  Values are formed before the operation begins. -/
def Edit.apply (s : Session) : Edit → Node → Except Refusal Reply × Node
  | .set field t, n =>
    match t.eval s with
    | .ok v => Reply.ofChange (InPlace.set field v) n
    | .error e => (.error e, n)
  | .push field t, n =>
    match t.eval s with
    | .ok v => Reply.ofChange (InPlace.push field v) n
    | .error e => (.error e, n)
  | .clear field, n => Reply.ofChange (InPlace.clear field) n
  | .finalize, n => (Reply.ofCheck n.finalize, n)
  | .finalizeTree, n => (Reply.ofCheck n.finalizeTree, n)
  | .look, n => (.ok .done, n)
  | .get field, n =>
    match n.get field with
    | .ok slot => (.ok (.slot slot), n)
    | .error e => (.error (.tree e), n)
  | .compare field t, n =>
    match t.eval s with
    | .error e => (.error e, n)
    | .ok v =>
      match n.get field with
      | .ok slot => (.ok (Reply.ofComparison slot v), n)
      | .error e => (.error (.tree e), n)
  | .child field edits, n =>
    let change : InPlace Id (Option (List (Except Refusal Reply))) :=
      InPlace.editChild field fun c => Edit.applyAll s edits c
    match Id.run (change.run n) with
    | (.ok answers, n') => (.ok (.edits answers), n')
    | (.error e, n') => (.error (.tree e), n')
  | .replace t, n =>
    match t.eval s with
    | .ok (.node n') => (.ok .done, n')
    | .ok _ => (.error .unusable, n)
    | .error e => (.error e, n)
  | .inspect, n => (.ok (.inspection n.inspect), n)
  | .describe, n => (.ok (.description n), n)
  | .unreadable, n => (.error .unusable, n)

/-- The answers of edits in order, and the node after the last. -/
def Edit.applyAll (s : Session) : List Edit → Node → List (Except Refusal Reply) × Node
  | [], n => ([], n)
  | e :: es, n =>
    let first := Edit.apply s e n
    let others := Edit.applyAll s es first.2
    (first.1 :: others.1, others.2)

end

end TreeSchema
