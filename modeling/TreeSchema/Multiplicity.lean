/-
# TreeSchema.Multiplicity — how many values a field takes.

Two independent questions: is the field a sequence, and must it hold something when the node is
finished?  Each of the four answers is one class.
-/

namespace TreeSchema

/-- The cardinality class of a field. -/
inductive Multiplicity where
  /-- Exactly one value, which must be set in the end. -/
  | needed
  /-- At most one value. -/
  | optional
  /-- Any number of values. -/
  | zeroOrMore
  /-- At least one value in the end. -/
  | oneOrMore
deriving DecidableEq, Inhabited

namespace Multiplicity

/-- Whether the field holds an ordered sequence. -/
def isSequence : Multiplicity → Bool
  | needed | optional => false
  | zeroOrMore | oneOrMore => true

/-- Whether a finished node must have the field filled. -/
def isRequired : Multiplicity → Bool
  | needed | oneOrMore => true
  | optional | zeroOrMore => false

/-- The mark after the types: none, `?`, `*` or `+`. -/
def suffix : Multiplicity → String
  | needed => ""
  | optional => "?"
  | zeroOrMore => "*"
  | oneOrMore => "+"

/-- The name of the class in a declaration. -/
def code : Multiplicity → String
  | needed => "NEEDED"
  | optional => "OPTIONAL"
  | zeroOrMore => "ZERO_OR_MORE"
  | oneOrMore => "ONE_OR_MORE"

/-- All classes, in the order in which a message lists them. -/
def all : List Multiplicity := [needed, optional, zeroOrMore, oneOrMore]

/-- The class with a given name. -/
def ofCode? (code : String) : Option Multiplicity :=
  all.find? fun m => m.code = code

/-- Names and classes determine each other. -/
@[simp] theorem ofCode?_code (m : Multiplicity) : ofCode? m.code = some m := by
  cases m <;> decide

end Multiplicity

end TreeSchema
