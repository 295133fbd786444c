/-
# TreeSchema.Json.Reading — what a JSON text gives to a reader.

A text is a string, an absent value is null, and a record is a map or a list in the order of the
fields.  A variant is a string, or a map from the variant to null.
-/
import TreeSchema.Json.Tree

namespace TreeSchema.Json

open Reading

/-- Complaints about a JSON text do not show where they arose. -/
def dialect : Dialect := ⟨"null", false⟩

/-- What a value is called in a complaint; nothing if its own text is broken. -/
def Tree.found? : Tree → Option Found
  | .null => some .nothing
  | .flag b => some (.flag b)
  | .number n => n.found?
  | .string content => content.map .text
  | .list _ _ => some .list
  | .map _ _ => some .map
  | .broken => none

/-- The complaint that a value is not what is wanted. -/
def Tree.reject {α : Type} (t : Tree) (wanted : String) : Except Fault α :=
  match t.found? with
  | some found => .error (.mismatch [] (.wrongKind found wanted))
  | none => .error .malformed

/-- The text of a string. -/
def Tree.text (wanted : String) (t : Tree) : Except Fault String :=
  match t with
  | .string (some s) => .ok s
  | t => t.reject wanted

mutual

/-- Whether no part of a value breaks off. -/
def Tree.isWhole : Tree → Bool
  | .list items whole => whole && Tree.areWhole items
  | .map entries whole => whole && Tree.entriesWhole entries
  | .broken => false
  | _ => true

/-- Whether no item of a list breaks off. -/
def Tree.areWhole : List Tree → Bool
  | [] => true
  | t :: ts => Tree.isWhole t && Tree.areWhole ts

/-- Whether no entry of a map breaks off. -/
def Tree.entriesWhole : List (Tree × Tree) → Bool
  | [] => true
  | (name, t) :: rest => Tree.isWhole name && Tree.isWhole t && Tree.entriesWhole rest

end

/-- The name of an entry: a string, and nothing else. -/
def Tree.label : Tree → Except Fault Label
  | .string (some s) => .ok ⟨s, .entry s⟩
  | _ => .error .malformed

/-- The variant that a string names, or the first entry of a map whose value is null. -/
def Tree.variant (known : List String) (t : Tree) : Except Fault String :=
  let name (t : Tree) : Except Fault String :=
    match t.text "variant identifier" with
    | .ok s => if known.contains s then .ok s else .error (.mismatch [] (.unknownVariant s known))
    | .error e => .error e
  match t with
  | .string _ => name t
  | .map ((key, value) :: rest) whole =>
    match name key, value with
    | .error e, _ => .error e
    | .ok s, .null => if rest.isEmpty && whole then .ok s else .error .malformed
    | .ok _, value => value.reject "unit"
  | _ => .error .malformed

/-- JSON as a source. -/
def source : Source (Except Fault) Tree where
  text := Tree.text
  flag wanted t :=
    match t with
    | .flag b => .ok b
    | t => t.reject wanted
  optional t :=
    match t with
    | .null => .ok none
    | t => .ok (some t)
  items wanted t :=
    match t with
    | .list items whole => .ok ⟨items, whole⟩
    | t => t.reject wanted
  record wanted t :=
    match t with
    | .list items whole => .ok (.positional ⟨items, whole⟩)
    | .map entries whole => .ok (.named (entries.map fun e => (e.1.label, e.2)) whole)
    | t => t.reject wanted
  variant := Tree.variant
  skip t := if t.isWhole then .ok () else .error .malformed

/-- Reads a whole text: nothing but white space may follow the root. -/
def readAll {α : Type} (read : Tree → Except Fault α) (input : List Text.Glyph) : Except Fault α :=
  match parse input with
  | (root, complete) =>
    match read root with
    | .ok a => if complete then .ok a else .error .malformed
    | .error e => .error e

end TreeSchema.Json
