/-
# TreeSchema.Document — structured text, whatever its format.

Everything that is saved is first a tree of texts, lists and records.  The formats differ only in how
they spell such a tree.
-/

namespace TreeSchema

/-- A tree of texts, lists and records; entries of a record keep their order. -/
inductive Document where
  | null
  | flag (b : Bool)
  | text (s : String)
  | list (items : List Document)
  | record (entries : List (String × Document))

namespace Document

instance : Inhabited Document := ⟨null⟩

/-- An entry that is left out when there is nothing to write. -/
def optional (name : String) (content : Option String) : List (String × Document) :=
  match content with
  | some s => [(name, text s)]
  | none => []

end Document

end TreeSchema
