/-
# TreeSchema.Reading — taking a structured text apart.

A reader asks a text for what it wants: a text, a list, a record.  What counts as each is the format's
own affair and is given by a `Source`; what is wanted, in which order complaints arise and how they
are worded is the same for all formats.

A text may break off or turn to nonsense somewhere.  That matters only once the reading gets there:
a complaint about a value before that point comes first.
-/
import TreeSchema.Error

namespace TreeSchema.Reading

/-- One step from a value to a part of it. -/
inductive Place where
  | entry (name : String)
  | item (i : Nat)
  /-- An entry whose name cannot be shown. -/
  | unnamed

/-- What stands where something else is wanted. -/
inductive Found where
  | nothing
  | flag (b : Bool)
  | integer (digits : String)
  /-- An integer beyond sixty-four bits. -/
  | wide (digits : String) (negative : Bool)
  | number (text : String)
  | text (s : String)
  | list
  | map
deriving DecidableEq

/-- What is wrong with a value of a text that is not broken. -/
inductive Cause where
  | missing (field : String)
  | duplicate (field : String)
  | unknownVariant (found : String) (known : List String)
  | wrongKind (found : Found) (wanted : String)
  /-- A text that does not spell what its mark announces. -/
  | wrongSpelling (text : String) (wanted : String)
  | wrongLength (n : Nat) (wanted : String)
  | refused (e : WrongValue)

/-- Why a text could not be read. -/
inductive Fault where
  /-- The text breaks the rules of its format. -/
  | malformed
  /-- A value is not what is wanted there; the place is counted from the root. -/
  | mismatch (path : List Place) (cause : Cause)
  /-- The same, told at the place of whatever holds the value. -/
  | held (cause : Cause)

/-- Whether a certain thing came of a reading can be told without comparing complaints. -/
instance decidableEqOk {ε α : Type} [DecidableEq α] (r : Except ε α) (a : α) :
    Decidable (r = .ok a) :=
  match r with
  | .ok b => decidable_of_iff (b = a) (by simp)
  | .error _ => isFalse (by simp)

/-- The same fault seen from one step further out. -/
def Fault.within (place : Place) : Fault → Fault
  | malformed => malformed
  | mismatch path cause => mismatch (place :: path) cause
  | held cause => mismatch [] cause

/-! ## Wording -/

/-- How a format words a complaint. -/
structure Dialect where
  /-- The word for the absence of a value. -/
  nothing : String
  /-- Whether complaints begin with the place they are about. -/
  showsPlace : Bool

/-- What was found, in words. -/
def Found.describe (nothing : String) : Found → String
  | .nothing => nothing
  | .flag b => "boolean `" ++ toString b ++ "`"
  | .integer digits => "integer `" ++ digits ++ "`"
  | .wide digits negative =>
    "integer `" ++ digits ++ "` as " ++ if negative then "i128" else "u128"
  | .number shown => "floating point `" ++ shown ++ "`"
  | .text s => "string " ++ Text.escaped s
  | .list => "sequence"
  | .map => "map"

/-- A cause in words. -/
def Cause.describe (nothing : String) : Cause → String
  | missing field => "missing field `" ++ field ++ "`"
  | duplicate field => "duplicate field `" ++ field ++ "`"
  | unknownVariant found known =>
    "unknown variant `" ++ found ++ "`, expected one of "
      ++ ", ".intercalate (known.map fun k => "`" ++ k ++ "`")
  | wrongKind found wanted => "invalid type: " ++ found.describe nothing ++ ", expected " ++ wanted
  | wrongSpelling text wanted =>
    "invalid value: string " ++ Text.escaped text ++ ", expected " ++ wanted
  | wrongLength n wanted => "invalid length " ++ toString n ++ ", expected " ++ wanted
  | refused e => e.message

/-- A path in words: names joined by dots, positions in brackets. -/
def describePath (path : List Place) : String :=
  path.foldl
    (fun shown place =>
      let dotted (name : String) : String := if shown = "" then name else shown ++ "." ++ name
      match place with
      | .entry name => dotted name
      | .item i => shown ++ "[" ++ toString i ++ "]"
      | .unnamed => dotted "?")
    ""

/-- A fault in the words of a format. -/
def Fault.describe (dialect : Dialect) : Fault → String
  | malformed => "syntax"
  | mismatch path cause =>
    let words := cause.describe dialect.nothing
    if dialect.showsPlace && !path.isEmpty then describePath path ++ ": " ++ words else words
  | held cause => cause.describe dialect.nothing

/-! ## Sources -/

/-- The name of an entry and how complaints about the entry point to it. -/
structure Label where
  name : String
  place : Place

/-- The items of a list, up to where it ends or breaks. -/
structure Items (T : Type) where
  items : List T
  whole : Bool

/-- A record as it stands in a text. -/
inductive Layout (m : Type → Type) (T : Type) where
  /-- Named entries; reading a name may fail. -/
  | named (entries : List (m Label × T)) (whole : Bool)
  /-- Values in the order of the fields. -/
  | positional (items : Items T)

/-- What a format takes for what.  Each question says what is wanted, for the complaint. -/
structure Source (m : Type → Type) (T : Type) where
  text : (wanted : String) → T → m String
  flag : (wanted : String) → T → m Bool
  /-- The value, unless there is none. -/
  optional : T → m (Option T)
  items : (wanted : String) → T → m (Items T)
  record : (wanted : String) → T → m (Layout m T)
  /-- The name of one of several variants. -/
  variant : (known : List String) → T → m String
  /-- Passes over a value that nobody wants. -/
  skip : T → m Unit

section

variable {m : Type → Type} [Monad m] [MonadExceptOf Fault m] {T α σ : Type}

/-- A complaint at the current place. -/
def complain (cause : Cause) : m α := throw (.mismatch [] cause)

/-- A broken text. -/
def malformed : m α := throw Fault.malformed

/-- Reads a part at a place. -/
def inside (place : Place) (read : m α) : m α :=
  tryCatch read fun e => throw (Fault.within place e)

/-- Reads every item of a list, counted from `i`. -/
def readItems (read : T → m α) : (i : Nat) → List T → m (List α)
  | _, [] => pure []
  | i, t :: ts => do
    let a ← inside (.item i) (read t)
    let rest ← readItems read (i + 1) ts
    pure (a :: rest)

namespace Source

/-- A list of things of one kind. -/
def list (src : Source m T) (read : T → m α) (t : T) : m (List α) := do
  let items ← src.items "a sequence" t
  let read ← readItems read 0 items.items
  if items.whole then pure read else malformed

/-- A thing that may be absent. -/
def option (src : Source m T) (read : T → m α) (t : T) : m (Option α) := do
  match ← src.optional t with
  | some t' => some <$> read t'
  | none => pure none

end Source

/-! ## Records -/

/-- A field of a record under construction. -/
structure Part (m : Type → Type) (T σ : Type) where
  name : String
  /-- Whether the field has been read. -/
  isTaken : σ → Bool
  read : T → σ → m σ

/-- Reads named entries in the order of the text.  Entries with other names are passed over, a second
entry of one name is refused before its value is looked at. -/
def readNamed (src : Source m T) (parts : List (Part m T σ)) :
    List (m Label × T) → σ → m σ
  | [], draft => pure draft
  | (label, t) :: rest, draft => do
    let label ← label
    match parts.find? fun p => p.name = label.name with
    | none => do
      src.skip t
      readNamed src parts rest draft
    | some p =>
      if p.isTaken draft then complain (.duplicate p.name)
      else do
        let draft ← inside label.place (p.read t draft)
        readNamed src parts rest draft

/-- Reads values in the order of the fields; the values after the last field are left over. -/
def readPositional : List (Part m T σ) → (i : Nat) → List T → σ → m (σ × List T)
  | p :: ps, i, t :: ts, draft => do
    let draft ← inside (.item i) (p.read t draft)
    readPositional ps (i + 1) ts draft
  | _, _, ts, draft => pure (draft, ts)

/-- Reads a record called `name`.  `finish` makes the record or names the first field that is missing;
in a positional record what is missing is an item, so the complaint is about the length. -/
def readRecord (src : Source m T) (name : String) (parts : List (Part m T σ)) (empty : σ)
    (finish : σ → Except String α) (t : T) : m α := do
  match ← src.record ("struct " ++ name) t with
  | .named entries whole => do
    let draft ← readNamed src parts entries empty
    if whole then
      match finish draft with
      | .ok a => pure a
      | .error field => complain (.missing field)
    else malformed
  | .positional items => do
    let (draft, rest) ← readPositional parts 0 items.items empty
    if items.items.length < parts.length && !items.whole then malformed
    else
      match finish draft with
      | .ok a => if rest.isEmpty && items.whole then pure a else malformed
      | .error _ =>
        complain (.wrongLength items.items.length
          ("struct " ++ name ++ " with " ++ toString parts.length ++ " elements"))

end

end TreeSchema.Reading
