/-
# TreeSchema.Error — what can be wrong with a declaration, a write or a tree.

Every refusal is a cause with the names it is about; the wording is one function per type.
-/
import TreeSchema.Text.Escaped

namespace TreeSchema

/-- The restricted scalar domains. -/
inductive Domain where
  | identifier
  | singleton
deriving DecidableEq

/-- The name of a domain. -/
def Domain.name : Domain → String
  | identifier => "identifier"
  | singleton => "singleton"

/-- A scalar domain refused a value. -/
structure WrongValue where
  domain : Domain
  /-- The rendering of the refused value. -/
  value : String
deriving DecidableEq

/-- The wording of a refused value. -/
def WrongValue.message (e : WrongValue) : String :=
  e.value ++ " is not a valid " ++ e.domain.name

/-- Why a write to a field was refused. -/
inductive Mismatch where
  /-- A sequence field was given a bare value. -/
  | expectedSequence
  /-- A single-valued field was given a sequence. -/
  | expectedSingle
  /-- No accepted type admits the value. -/
  | notAdmitted (expected : String)
  /-- No accepted type admits the element at a position. -/
  | elementNotAdmitted (index : Nat) (expected : String)
deriving DecidableEq

/-- The wording of a mismatch. -/
def Mismatch.message : Mismatch → String
  | expectedSequence => "expected a sequence"
  | expectedSingle => "expected a single value, got a sequence"
  | notAdmitted expected => "expected " ++ expected
  | elementNotAdmitted index expected => "element " ++ toString index ++ " is not " ++ expected

/-- A refused write.  The field keeps what it held. -/
structure WrongType where
  kind : String
  field : String
  /-- The rendering of the offending value or element. -/
  value : String
  reason : Mismatch
deriving DecidableEq

/-- The wording of a refused write. -/
def WrongType.message (e : WrongType) : String :=
  e.kind ++ "." ++ e.field ++ ": " ++ e.reason.message ++ " (got " ++ e.value ++ ")"

/-- Everything that can be wrong with schemas and trees. -/
inductive TreeError where
  /-- Required fields are not filled. -/
  | incomplete (kind : String) (fields : List String)
  | unknownField (kind field : String)
  | unknownKind (kind : String)
  | duplicateKind (kind : String)
  | duplicateField (kind field : String)
  | invalidName (name : String)
  | emptyTypeSet (kind field : String)
  | danglingReference (kind target : String)
  | inheritanceCycle (kind : String)
  /-- More positional values than fields. -/
  | tooManyValues (kind : String) (expected got : Nat)
  /-- A field was supplied twice. -/
  | duplicateValue (kind field : String)
  | alreadyInstalled
  /-- A failure of a sub-node, at a path from the root. -/
  | nested (path : String) (source : TreeError)
  | wrongType (e : WrongType)
  | wrongValue (e : WrongValue)
deriving DecidableEq

namespace TreeError

/-- The wording of an error. -/
def message : TreeError → String
  | incomplete kind fields => kind ++ " is incomplete: missing " ++ ", ".intercalate fields
  | unknownField kind field => kind ++ " has no field named " ++ Text.escaped field
  | unknownKind kind => "unknown node kind: " ++ kind
  | duplicateKind kind => "duplicate node kind: " ++ kind
  | duplicateField kind field =>
    kind ++ " declares field " ++ Text.escaped field ++ " more than once"
  | invalidName name => "invalid name in declaration: " ++ Text.escaped name
  | emptyTypeSet kind field => kind ++ "." ++ field ++ " accepts no types"
  | danglingReference kind target => kind ++ " refers to unknown node kind " ++ target
  | inheritanceCycle kind => "inheritance cycle through " ++ kind
  | tooManyValues kind expected got =>
    kind ++ " takes " ++ toString expected ++ " fields but " ++ toString got
      ++ " positional values were given"
  | duplicateValue kind field => kind ++ "." ++ field ++ " was given more than one value"
  | alreadyInstalled => "a global schema registry is already installed"
  | nested path source => "at " ++ path ++ ": " ++ source.message
  | wrongType e => e.message
  | wrongValue e => e.message

/-- The error under all paths. -/
def innermost : TreeError → TreeError
  | nested _ source => source.innermost
  | e => e

/-- Whether the cause is a refused write. -/
def isWrongType (e : TreeError) : Bool :=
  match e.innermost with
  | wrongType _ => true
  | _ => false

/-- Whether the cause is a refused scalar. -/
def isWrongValue (e : TreeError) : Bool :=
  match e.innermost with
  | wrongValue _ => true
  | _ => false

/-- The same failure seen from one step further out: paths are joined, never stacked. -/
def within (step : String) : TreeError → TreeError
  | nested path source => nested (step ++ "." ++ path) source
  | e => nested step e

end TreeError

end TreeSchema
