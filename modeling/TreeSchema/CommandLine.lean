/-
# TreeSchema.CommandLine — what a command line asks for.

There are three jobs.  Two options may stand before or after the name of the job; the one that
stands after it wins.
-/

namespace TreeSchema

/-- How schemas are shown. -/
inductive View where
  | text
  | json
  | yaml
deriving DecidableEq

/-- What is to be done. -/
inductive Job where
  /-- Validates declarations. -/
  | check
  /-- Shows schemas, all of them or the one of a kind. -/
  | present (kind : Option String) (view : View)
  /-- Lists the kinds. -/
  | kinds
deriving DecidableEq

/-- A complete request. -/
structure Invocation where
  job : Job
  /-- Files and directories with declarations. -/
  inputs : List String
  config : Option String
  /-- How often more log output was asked for. -/
  verbosity : Nat
deriving DecidableEq

/-- What a command line says. -/
inductive CommandLine where
  | invoke (i : Invocation)
  /-- Asks how to ask. -/
  | help
  /-- Says nothing that is understood. -/
  | misused
deriving DecidableEq

namespace CommandLine

/-! ## Words -/

/-- The names of the jobs. -/
inductive JobName where
  | check
  | present
  | kinds
deriving DecidableEq

/-- The job with a name. -/
def JobName.ofWord? : String → Option JobName
  | "check" => some .check
  | "show" => some .present
  | "kinds" => some .kinds
  | _ => none

/-- The view with a name. -/
def viewOfWord? : String → Option View
  | "text" => some .text
  | "json" => some .json
  | "yaml" => some .yaml
  | _ => none

/-- An option that takes a value. -/
inductive Setting where
  | config
  | kind
  | view
deriving DecidableEq

/-- The setting with a name; before the name of a job only the configuration can be set. -/
def Setting.ofName? (job : Option JobName) (name : String) : Option Setting :=
  if name = "config" then some .config
  else if job = some .present then
    if name = "kind" then some .kind else if name = "format" then some .view else none
  else none

/-- One word of a command line, on its own. -/
inductive Word where
  /-- Two hyphens, after which no word is an option. -/
  | divider
  /-- A long option, perhaps with a value after an equals sign. -/
  | long (name : String) (value : Option String)
  /-- Short options behind one hyphen. -/
  | short (flags : List Char)
  | plain (text : String)

/-- A word as it is spelt. -/
def Word.ofText (text : String) : Word :=
  match text.toList with
  | ['-', '-'] => .divider
  | '-' :: '-' :: rest =>
    let name := rest.takeWhile (· != '=')
    .long (String.ofList name)
      (if name.length < rest.length then some (String.ofList (rest.drop (name.length + 1))) else none)
  | '-' :: c :: rest => .short (c :: rest)
  | _ => .plain text

/-! ## Reading -/

/-- What has been read on one side of the name of the job. -/
structure Draft where
  inputs : List String := []
  config : Option String := none
  kind : Option String := none
  view : Option View := none
  verbosity : Nat := 0

/-- Sets an option.  Each may be set once; a path must not be empty and a view must be known. -/
def Draft.assign (d : Draft) (setting : Setting) (value : String) : Option Draft :=
  match setting with
  | .config => if d.config.isSome || value.isEmpty then none else some { d with config := some value }
  | .kind => if d.kind.isSome then none else some { d with kind := some value }
  | .view =>
    match d.view, viewOfWord? value with
    | none, some view => some { d with view := some view }
    | _, _ => none

/-- What reading words comes to. -/
inductive Reading where
  /-- All words are read. -/
  | done (d : Draft)
  /-- The name of a job and what follows it. -/
  | job (name : JobName) (d : Draft) (rest : List String)
  | help
  | misused

/-- Short options: nothing but repeated requests for more output, and for help. -/
def readFlags (d : Draft) : List Char → Option Draft ⊕ Unit
  | [] => .inl (some d)
  | 'v' :: rest => readFlags { d with verbosity := d.verbosity + 1 } rest
  | 'h' :: _ => .inr ()
  | _ => .inl none

/-- Whether words ask for the help on something that there is. -/
def asksHelp : List String → Bool
  | [] => true
  | [name] => (JobName.ofWord? name).isSome || name = "help"
  | _ => false

/-- Reads the words on one side of the name of the job. -/
def readWords (job : Option JobName) : Draft → List String → Reading
  | d, [] => .done d
  | d, w :: rest =>
    let input (text : String) : Option Draft :=
      if job.isNone || text.isEmpty then none else some { d with inputs := d.inputs ++ [text] }
    match Word.ofText w with
    | .divider =>
      if job.isNone || rest.contains "" then .misused
      else .done { d with inputs := d.inputs ++ rest }
    | .short flags =>
      match readFlags d flags with
      | .inl (some d) => readWords job d rest
      | .inl none => .misused
      | .inr () => .help
    | .long "verbose" none => readWords job { d with verbosity := d.verbosity + 1 } rest
    | .long "help" none => .help
    | .long name value =>
      match Setting.ofName? job name, value, rest with
      | some setting, some value, rest =>
        match d.assign setting value with
        | some d => readWords job d rest
        | none => .misused
      | some setting, none, value :: rest =>
        match Word.ofText value, d.assign setting value with
        | .plain _, some d => readWords job d rest
        | _, _ => .misused
      | _, _, _ => .misused
    | .plain text =>
      match job, JobName.ofWord? text with
      | none, some name => .job name d rest
      | none, none => if text = "help" && asksHelp rest then .help else .misused
      | some _, _ =>
        match input text with
        | some d => readWords job d rest
        | none => .misused

/-- The job that a name and its options stand for. -/
def JobName.job (name : JobName) (d : Draft) : Job :=
  match name with
  | .check => .check
  | .present => .present d.kind (d.view.getD .text)
  | .kinds => .kinds

/-- What a command line says. -/
def parse (words : List String) : CommandLine :=
  match readWords none {} words with
  | .help => .help
  | .done _ | .misused => .misused
  | .job name before rest =>
    match readWords (some name) {} rest with
    | .done d =>
      .invoke
        { job := name.job d, inputs := d.inputs, config := d.config.or before.config
          verbosity := if d.verbosity = 0 then before.verbosity else d.verbosity }
    | .help => .help
    | .job _ _ _ | .misused => .misused

end CommandLine

end TreeSchema
