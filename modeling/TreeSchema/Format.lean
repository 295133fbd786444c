/-
# TreeSchema.Format — the two formats of structured text.

Both formats are read by the same readers; they differ in what they take for a text, a list or a
record, and in how complaints are worded.
-/
import TreeSchema.Json.Reading
import TreeSchema.Json.Written
import TreeSchema.Text.Unicode
import TreeSchema.Yaml.Reading
import TreeSchema.Yaml.Written

namespace TreeSchema

open Reading

/-- A format of structured text. -/
inductive Format where
  | yaml
  | json
deriving DecidableEq

/-- A way to read a thing from structured text, whatever its format. -/
abbrev Readable (α : Type) : Type 1 :=
  ∀ {m : Type → Type} [Monad m] [MonadExceptOf Fault m] {T : Type}, Source m T → T → m α

namespace Format

/-- The name of a format. -/
def name : Format → String
  | yaml => "YAML"
  | json => "JSON"

/-- How a format words its complaints. -/
def dialect : Format → Dialect
  | yaml => Yaml.dialect
  | json => Json.dialect

/-- Reads a text. -/
def readText {α : Type} (read : Readable α) (format : Format) (text : String) : Except Fault α :=
  match format with
  | yaml => Yaml.readAll (fun src t => read src t) (Text.withoutMark text.toList)
  | json => Json.readAll (fun t => read Json.source t) (Text.glyphs text)

/-- Reads bytes.  A YAML text may be in UTF-16 if it says so, a JSON text is in UTF-8. -/
def readBytes {α : Type} (read : Readable α) (format : Format) (data : ByteArray) :
    Except Fault α :=
  match format with
  | yaml =>
    match Text.decode? data with
    | some text => Yaml.readAll (fun src t => read src t) text
    | none => .error .malformed
  | json => Json.readAll (fun t => read Json.source t) (Text.glyphsOfBytes data)

/-- A document as the content of a file. -/
def write (format : Format) (d : Document) : String :=
  match format with
  | yaml => Yaml.written d
  | json => Json.pretty d

end Format

end TreeSchema
