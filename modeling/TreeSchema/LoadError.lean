/-
# TreeSchema.LoadError — what can go wrong between a file and a registry.
-/
import TreeSchema.Files.Access
import TreeSchema.Format

namespace TreeSchema

/-- Why declarations or a configuration could not be loaded or saved. -/
inductive LoadError where
  /-- A file could not be opened or created. -/
  | file (why : Files.Refused)
  /-- A file that had been opened could not be read. -/
  | interrupted (format : Format) (why : Files.Refused)
  /-- A text could not be read. -/
  | unreadable (format : Format) (why : Reading.Fault)
  /-- The name of a file says of no known format. -/
  | unsupported (path : String)
  /-- A directory holds no declarations. -/
  | nothingIn (path : String)
  /-- Nothing was asked for. -/
  | noSources
  /-- The declared schemas do not agree. -/
  | invalid (why : TreeError)

/-- The wording of an error. -/
def LoadError.message : LoadError → String
  | file why => "I/O error: " ++ why.message
  | interrupted format why => format.name ++ " error: " ++ why.message
  | unreadable format why => format.name ++ " error: " ++ why.describe format.dialect
  | unsupported path => "unsupported declaration format: " ++ path
  | nothingIn path => "no declarations found in " ++ path
  | noSources => "no declaration sources given"
  | invalid why => "invalid declarations: " ++ why.message

end TreeSchema
