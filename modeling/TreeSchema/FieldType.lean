/-
# TreeSchema.FieldType — one member of a field's accepted types.

Five names are built in; every other name refers to a kind of node.  A type is written as its bare
name, so a reference to a kind with a built-in name reads back as the built-in type.
-/

namespace TreeSchema

/-- A type that a field may accept. -/
inductive FieldType where
  /-- Text that is an identifier, wrapped or raw. -/
  | identifier
  /-- True, false or null. -/
  | singleton
  /-- Any text, identifiers included. -/
  | text
  | int
  | float
  /-- Nodes of the named kind or of a kind that extends it. -/
  | node (kind : String)
deriving DecidableEq, Inhabited

namespace FieldType

/-- The name of a type in a declaration. -/
def name : FieldType → String
  | identifier => "identifier"
  | singleton => "singleton"
  | text => "text"
  | int => "int"
  | float => "float"
  | node kind => kind

/-- The types that are not kinds of nodes. -/
def builtins : List FieldType := [identifier, singleton, text, int, float]

/-- Whether a name is that of a built-in type, which no kind may take. -/
def isBuiltinName (name : String) : Bool := builtins.any fun t => t.name = name

/-- The type that a name stands for. -/
def ofName (name : String) : FieldType :=
  (builtins.find? fun t => t.name = name).getD (node name)

/-- Whether the type refers to a kind. -/
def isNode : FieldType → Bool
  | node _ => true
  | _ => false

/-- The kind that a type refers to. -/
def target? : FieldType → Option String
  | node kind => some kind
  | _ => none

/-- A name is kept by the type it stands for. -/
@[simp] theorem name_ofName (s : String) : (ofName s).name = s := by
  unfold ofName
  cases h : builtins.find? fun t => decide (t.name = s) with
  | none => rfl
  | some t => simpa using List.find?_some h

/-- Writing and reading a type loses nothing, unless it refers to a kind with a built-in name. -/
theorem ofName_name_eq_iff (t : FieldType) :
    ofName t.name = t ↔ ∀ kind, t = node kind → isBuiltinName kind = false := by
  cases t with
  | node kind =>
    simp only [name, node.injEq, forall_eq']
    cases h : builtins.find? fun t => decide (t.name = kind) with
    | none =>
      have hn := List.find?_eq_none.1 h
      simp only [ofName, h, Option.getD_none, true_iff, isBuiltinName]
      exact List.any_eq_false.2 hn
    | some t =>
      have hm := List.mem_of_find?_eq_some h
      have ht := List.find?_some h
      have hb : isBuiltinName kind = true := List.any_eq_true.2 ⟨t, hm, ht⟩
      simp only [ofName, h, Option.getD_some, hb, Bool.true_eq_false, iff_false]
      rintro rfl
      simp [builtins] at hm
  | _ => simp [ofName, name, builtins]

end FieldType

end TreeSchema
