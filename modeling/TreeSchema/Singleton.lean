/-
# TreeSchema.Singleton — true, false and the null value.

Nothing else is a singleton, whatever it would count as in a condition: not zero, not the empty text.
-/

namespace TreeSchema

/-- One of true, false and the null value (`none`). -/
structure Singleton where
  value : Option Bool
deriving DecidableEq, Inhabited

namespace Singleton

/-- The null value. -/
def null : Singleton := ⟨none⟩

/-- A boolean as a singleton. -/
def ofBool (b : Bool) : Singleton := ⟨some b⟩

/-- The null value among the singletons. -/
def isNull (s : Singleton) : Bool := s.value.isNone

/-- The literal of a boolean or null value. -/
def render (s : Singleton) : String :=
  match s.value with
  | some true => "True"
  | some false => "False"
  | none => "None"

/-- The place of a singleton in its order: null, false, true. -/
def rank (s : Singleton) : Nat :=
  match s.value with
  | none => 0
  | some false => 1
  | some true => 2

instance : Ord Singleton := ⟨fun a b => compare a.rank b.rank⟩

end Singleton

end TreeSchema
