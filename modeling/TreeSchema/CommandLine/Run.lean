/-
# TreeSchema.CommandLine.Run — what a command line brings about.

A request is answered by a text, or by one line that says why not.
-/
import TreeSchema.CommandLine
import TreeSchema.Declarations.Fingerprint
import TreeSchema.Text.Blank
import TreeSchema.ToolConfig.Files

namespace TreeSchema

open Files

/-- What a program leaves behind. -/
structure Exit where
  code : Nat
  output : String
  /-- The line on the error stream. -/
  complaint : Option String
deriving DecidableEq

namespace CommandLine

/-- The lines of a text with a line end behind each. -/
def printed (lines : List String) : String := String.join (lines.map fun l => l ++ "\n")

/-- Schemas in a view, without white space at the end. -/
def shown (view : View) (schemas : List NodeSchema) : String :=
  let document := Document.list (schemas.map NodeSchema.toDocument)
  let text :=
    match view with
    | .text => "\n\n".intercalate (schemas.map NodeSchema.render)
    | .json => Format.json.write document
    | .yaml => Format.yaml.write document
  Text.trimEnd text

/-- A kind and the kind that it extends. -/
def kindLine (s : NodeSchema) : String :=
  match s.parent with
  | some parent => s.kind ++ " (" ++ parent ++ ")"
  | none => s.kind

end CommandLine

open CommandLine

/-! ## Answers -/

/-- Why a request has no answer. -/
inductive Complaint where
  /-- The configuration could not be loaded. -/
  | configuration (path : String) (why : LoadError)
  /-- Neither the request nor the configuration names declarations. -/
  | nothingNamed
  /-- The declarations could not be loaded or do not agree. -/
  | declarations (why : LoadError)
  /-- The kind that was asked for is not declared. -/
  | kind (why : TreeError)

/-- The wording of a complaint. -/
def Complaint.message : Complaint → String
  | configuration path why => "Failed to load config '" ++ path ++ "': " ++ why.message
  | nothingNamed => "No declaration sources: pass paths or a --config listing them"
  | declarations why => why.message
  | kind why => why.message

/-- The answer that a valid registry and the declarations in it give to a job. -/
def Job.answer (d : Declarations) (r : Registry) : Job → Except Complaint String
  | .check =>
    .ok
      (printed
        ["Checked " ++ toString r.size ++ " node kind(s).", "fingerprint: " ++ d.fingerprint])
  | .present none view => .ok (printed [shown view r.schemas])
  | .present (some kind) view =>
    match r.schema kind with
    | .ok s => .ok (printed [shown view [s]])
    | .error why => .error (.kind why)
  | .kinds => .ok (printed (r.schemas.map kindLine))

namespace Invocation

variable {m : Type → Type} [Monad m]

/-- The configuration that a request names, or the default. -/
def configuration (i : Invocation) (fs : Access m) : ExceptT Complaint m ToolConfig :=
  match i.config with
  | none => pure .default
  | some path => (ToolConfig.load fs path).adapt (.configuration path)

/-- The places that a request is about: those that it names, or else those of the configuration. -/
def places (i : Invocation) (c : ToolConfig) : List String :=
  if i.inputs.isEmpty then c.declarations else i.inputs

/-- The declarations that a request is about. -/
def declarations (i : Invocation) (fs : Access m) : ExceptT Complaint m Declarations := do
  let c ← i.configuration fs
  if (i.places c).isEmpty then throw .nothingNamed
  else (Declarations.ofPlaces fs (i.places c)).adapt .declarations

/-- The answer to a request. -/
def answer (i : Invocation) (fs : Access m) : ExceptT Complaint m String := do
  let d ← i.declarations fs
  match d.registry with
  | .error why => throw (.declarations why)
  | .ok r => ExceptT.mk (pure (i.job.answer d r))

end Invocation

namespace CommandLine

/-- How to ask. -/
def usage : String :=
  printed
    [ "Check and inspect syntax-tree node declarations", "",
      "Usage: node-schema [OPTIONS] <COMMAND>", "",
      "Commands:",
      "  check  Load declarations and validate every node kind",
      "  show   Print node kind schemas",
      "  kinds  List declared node kinds",
      "  help   Print this message or the help of the given subcommand(s)", "",
      "Options:",
      "      --config <CONFIG>  Tool configuration file listing declaration sources",
      "  -v, --verbose...       Increase log verbosity (-v debug, -vv trace)",
      "  -h, --help             Print help" ]

/-- Does what a command line says. -/
def run {m : Type → Type} [Monad m] (fs : Access m) (words : List String) : m Exit := do
  match parse words with
  | .help => pure ⟨0, usage, none⟩
  | .misused => pure ⟨2, "", some "error: this is no command line of node-schema, see --help"⟩
  | .invoke i =>
    match ← (i.answer fs).run with
    | .ok text => pure ⟨0, text, none⟩
    | .error why => pure ⟨1, "", some ("error: " ++ why.message)⟩

end CommandLine

end TreeSchema
