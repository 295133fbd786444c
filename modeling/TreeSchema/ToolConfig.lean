/-
# TreeSchema.ToolConfig — which declarations belong together.

A configuration lists sources of declarations and how much a tool should log.
-/
import TreeSchema.Document
import TreeSchema.Files.Path
import TreeSchema.NodeSchema.Reading

namespace TreeSchema

open Reading

/-- A tool's configuration. -/
structure ToolConfig where
  version : String
  /-- Files and directories. -/
  declarations : List String
  logLevel : String

namespace ToolConfig

/-- Whether two configurations are equal.  Their paths are compared as paths, place by place, and may be
written differently. -/
def equals (c d : ToolConfig) : Bool :=
  c.version == d.version && c.declarations.isEqv d.declarations Files.Path.equals &&
    c.logLevel == d.logLevel

/-- The level that is logged unless another is asked for. -/
def defaultLogLevel : String := "warn"

/-- The configuration of a tool that was given none. -/
def default : ToolConfig := ⟨"1.0", [], defaultLogLevel⟩

instance : Inhabited ToolConfig := ⟨default⟩

/-- The configuration as a document. -/
def toDocument (c : ToolConfig) : Document :=
  .record
    [("version", .text c.version), ("declarations", .list (c.declarations.map .text)),
      ("log_level", .text c.logLevel)]

/-- A configuration under construction. -/
structure Draft where
  version : Option String := none
  declarations : Option (List String) := none
  logLevel : Option String := none

/-- The configuration, or the first field that is missing. -/
def Draft.finish (d : Draft) : Except String ToolConfig :=
  match d.version with
  | some version =>
    .ok { version, declarations := d.declarations.getD []
          logLevel := d.logLevel.getD defaultLogLevel }
  | none => .error "version"

section

variable {m : Type → Type} [Monad m] [MonadExceptOf Fault m] {T : Type}

/-- The fields of a configuration. -/
def parts (src : Source m T) : List (Part m T Draft) :=
  [ { name := "version", isTaken := fun d => d.version.isSome
      read := fun t d => do
        let v ← readText src t
        pure { d with version := some v } },
    { name := "declarations", isTaken := fun d => d.declarations.isSome
      read := fun t d => do
        let v ← src.list (src.text "path string") t
        pure { d with declarations := some v } },
    { name := "log_level", isTaken := fun d => d.logLevel.isSome
      read := fun t d => do
        let v ← readText src t
        pure { d with logLevel := some v } } ]

/-- A configuration. -/
def read (src : Source m T) : T → m ToolConfig :=
  readRecord src "ToolConfig" (parts src) {} Draft.finish

end

end ToolConfig

end TreeSchema
