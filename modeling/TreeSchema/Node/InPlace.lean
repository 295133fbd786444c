/-
# TreeSchema.Node.InPlace — changing a node where it stands.

An operation in place works on a node that others hold as well: whatever it has done to the node by
the time it fails stays done.  Writes are judged before they happen.  The edit of a child is not: any
code may have run on the child before the field judges it, so a child that is refused has to be put
back.
-/
import TreeSchema.Node

namespace TreeSchema

/-- Work on a node in place.  The node is there afterwards whatever the answer, and an error takes
nothing back.  Anything that `m` allows may happen beside it. -/
abbrev InPlace (m : Type → Type) (α : Type) := ExceptT TreeError (StateT Node m) α

namespace InPlace

variable {m : Type → Type} [Monad m]

/-- Puts a slot at a place. -/
def putSlot (i : Nat) (slot : Slot) : InPlace m Unit :=
  modify fun n => n.putSlot i slot

/-- Replaces what a field holds. -/
def set (field : String) (v : Value) : InPlace m Unit := do
  let n ← get
  let (f, i) ← MonadExcept.ofExcept (n.locate field)
  let slot ← MonadExcept.ofExcept (n.accept f v)
  putSlot i slot

/-- Appends an element to a sequence field. -/
def push (field : String) (v : Value) : InPlace m Unit := do
  let n ← get
  let (f, i) ← MonadExcept.ofExcept (n.locate field)
  if f.multiplicity.isSequence then
    if Node.takesElement n.home f v then putSlot i ((n.slotAt i).append v)
    else throw (n.refusal f v (.elementNotAdmitted (n.elementsAt i).length f.typeNames))
  else throw (n.refusal f v .expectedSequence)

/-- Takes a field back to what a fresh node holds. -/
def clear (field : String) : InPlace m Unit := do
  let n ← get
  let (f, i) ← MonadExcept.ofExcept (n.locate field)
  putSlot i f.multiplicity.defaultSlot

/-- Edits the sub-node of a single-valued field where it stands.  A copy of the child is kept, and
takes the place of the edited child until that one has been judged. -/
def editChild {α : Type} (field : String) (edit : StateT Node m α) : InPlace m (Option α) := do
  let n ← get
  let (f, i) ← MonadExcept.ofExcept (n.locate field)
  match n.slotAt i with
  | .single (.node previous) =>
    let (answer, edited) ← liftM (edit.run previous)
    putSlot i (.single (.node edited))
    putSlot i (.single (.node previous))
    if f.admits n.home (.node edited) then
      putSlot i (.single (.node edited))
      pure (some answer)
    else throw (n.refusal f (.node edited) (.notAdmitted f.typeNames))
  | _ => pure none

end InPlace

end TreeSchema
