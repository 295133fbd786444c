/-
# TreeSchema.Installation — the registry that a whole process shares.

The place for it is written at most once.  A registry that fails validation does not use it up.
-/
import TreeSchema.Node.Construction

namespace TreeSchema

/-- The registry shared by a process, if one has been installed. -/
structure Installation where
  registry? : Option Sealed
deriving DecidableEq, Inhabited

namespace Installation

/-- Nothing installed yet. -/
def empty : Installation := ⟨none⟩

/-- Installs a registry.  It is validated first, also when the place is already taken. -/
def install (i : Installation) (r : Registry) (stamp : Nat) : Except TreeError (Sealed × Installation) :=
  match r.seal stamp with
  | .error e => .error e
  | .ok home =>
    match i.registry? with
    | some _ => .error .alreadyInstalled
    | none => .ok (home, ⟨some home⟩)

/-- A fresh node of the installed registry; before an installation no kind is known. -/
def node (i : Installation) (kind : String) : Except TreeError Node :=
  match i.registry? with
  | some home => home.node kind
  | none => .error (.unknownKind kind)

/-- A node of the installed registry with positional values. -/
def construct (i : Installation) (kind : String) (values : List Value) : Except TreeError Node :=
  match i.registry? with
  | some home => home.construct kind values
  | none => .error (.unknownKind kind)

end Installation

end TreeSchema
