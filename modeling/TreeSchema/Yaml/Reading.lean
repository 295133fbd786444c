/-
# TreeSchema.Yaml.Reading — what a YAML text gives to a reader.

Every scalar is a text, whatever it looks like; what it denotes matters only where a boolean or
nothing is wanted, and in complaints.  Aliases are followed where a value is looked at.  How often
that may happen is limited by the length of the text, so that a short text cannot stand for a huge
one.
-/
import TreeSchema.Yaml.Scalar
import TreeSchema.Yaml.Token.Stream
import TreeSchema.Yaml.Tree

namespace TreeSchema.Yaml

open Reading

/-- Complaints about a YAML text show where they arose. -/
def dialect : Dialect := ⟨"unit value", true⟩

/-- A reading that counts the aliases it follows. -/
abbrev Reader := StateT Nat (Except Fault)

/-- A tag of the core set. -/
def coreTag (name : String) : String := "tag:yaml.org,2002:" ++ name

/-- Whether a tag belongs to the text that uses it. -/
def isLocalTag (tag : String) : Bool := tag.startsWith "!"

/-! ## Complaints -/

/-- What a scalar is called in a complaint that something else is wanted.  With a tag of the core set
it has to spell what the tag announces. -/
def scalarCause (tag : Option String) (text : String) (style : ScalarStyle) (wanted : String) :
    Cause :=
  let announced (found : Option Found) (kind : String) : Cause :=
    match found with
    | some found => .wrongKind found wanted
    | none => .wrongSpelling text kind
  let untagged := Cause.wrongKind (if style = .plain then found text else .text text) wanted
  match tag with
  | none => untagged
  | some tag =>
    if tag = coreTag "bool" then announced ((flag? text).map .flag) "a boolean"
    else if tag = coreTag "int" then announced (integer? text) "an integer"
    else if tag = coreTag "float" then announced ((number? text).map foundNumber) "a float"
    else if tag = coreTag "null" then
      announced (if isNullWord text then some .nothing else none) "null"
    else if isLocalTag tag then untagged
    else .wrongKind (.text text) wanted

/-- The complaint that a value is not what is wanted. -/
def Tree.reject {α : Type} (t : Tree) (wanted : String) : Reader α :=
  match t with
  | .scalar tag text style => complain (scalarCause tag text style wanted)
  | .list _ _ _ => complain (.wrongKind .list wanted)
  | .map _ _ _ => complain (.wrongKind .map wanted)
  | .alias _ | .broken | .absent => malformed

/-! ## Aliases -/

/-- How many aliases may be followed. -/
def Parsed.aliasLimit (p : Parsed) : Nat := p.assembly.size * 100

/-- The value itself, or the value that an alias stands for. -/
def Parsed.follow (p : Parsed) (t : Tree) : Reader Tree :=
  match t with
  | .alias anchor => do
    let followed ← get
    set (followed + 1)
    if p.aliasLimit < followed + 1 then malformed
    else
      match p.assembly.target? anchor with
      | some t => pure t
      | none => malformed
  | t => pure t

/-! ## Questions -/

mutual

/-- Whether no part of a value breaks off. -/
def Tree.isWhole : Tree → Bool
  | .list _ items whole => whole && Tree.areWhole items
  | .map _ entries whole => whole && Tree.entriesWhole entries
  | .broken => false
  | _ => true

/-- Whether no item of a list breaks off. -/
def Tree.areWhole : List Tree → Bool
  | [] => true
  | t :: ts => Tree.isWhole t && Tree.areWhole ts

/-- Whether no entry of a map breaks off. -/
def Tree.entriesWhole : List (Tree × Tree) → Bool
  | [] => true
  | (key, t) :: rest => Tree.isWhole key && Tree.isWhole t && Tree.entriesWhole rest

end

/-- Whether a value was left out where a list or record may stand. -/
def Tree.isVacant : Tree → Bool
  | .scalar _ text .plain => text.isEmpty
  | .absent => true
  | _ => false

/-- A boolean without quotes, or one in a literal scalar with the tag of booleans. -/
def Tree.flag? : Tree → Option Bool
  | .scalar _ text .plain => Yaml.flag? text
  | .scalar tag text .literal => if tag = some (coreTag "bool") then Yaml.flag? text else none
  | _ => none

/-- Whether there is no value.  Only a scalar without quotes can say so; one with the tag of null has
to. -/
def Tree.isNothing : Tree → Reader Bool
  | .scalar none text .plain => pure (text.isEmpty || isNullWord text)
  | .scalar (some tag) text .plain =>
    if tag = coreTag "null" then
      if isNullWord text then pure true else throw (.held (.wrongSpelling text "null"))
    else pure false
  | .absent => pure true
  | _ => pure false

/-- The text of a value. -/
def Tree.text (t : Tree) (wanted : String) : Reader String :=
  match t with
  | .scalar _ text _ => pure text
  | t => t.reject wanted

/-- The tag of a value, if it is a local one, without its mark. -/
def Tree.localTag? : Tree → Option String
  | .scalar tag _ _ | .list tag _ _ | .map tag _ _ =>
    (tag.filter isLocalTag).map fun tag => String.ofList (tag.toList.drop 1)
  | _ => none

/-- Passes over the content of a variant without content. -/
def Tree.unit : Tree → Reader Unit
  | .scalar _ text style =>
    if style = .plain && (text.isEmpty || isNullWord text) then pure ()
    else complain (.wrongSpelling text "null")
  | t => t.reject "unit"

/-- The variant that a local tag names, or a scalar without one. -/
def Tree.variant (known : List String) (t : Tree) : Reader String := do
  match t.localTag?, t with
  | some name, t =>
    if known.contains name then do
      t.unit
      pure name
    else throw (.held (.unknownVariant name known))
  | none, .scalar _ text _ =>
    if known.contains text then pure text else complain (.unknownVariant text known)
  | none, t => t.reject "a YAML tag starting with '!'"

/-- The name of an entry.  The name that an alias stands for is not shown in complaints. -/
def Parsed.label (p : Parsed) (key : Tree) : Reader Label := do
  let followed ← p.follow key
  let name ← followed.text "field identifier"
  pure ⟨name, match key with | .scalar _ _ _ => .entry name | _ => .unnamed⟩

/-- YAML as a source. -/
def source (p : Parsed) : Source Reader Tree where
  text wanted t := do
    let t ← p.follow t
    t.text wanted
  flag wanted t := do
    let t ← p.follow t
    match t.flag? with
    | some b => pure b
    | none => t.reject wanted
  optional t := do
    let t ← p.follow t
    if t matches .broken then malformed
    else if ← t.isNothing then pure none
    else pure (some t)
  items wanted t := do
    let t ← p.follow t
    match t with
    | .list _ items whole => pure ⟨items, whole⟩
    | t => if t.isVacant then pure ⟨[], true⟩ else t.reject wanted
  record wanted t := do
    let t ← p.follow t
    match t with
    | .map _ entries whole => pure (.named (entries.map fun e => (p.label e.1, e.2)) whole)
    | t => if t.isVacant then pure (.named [] true) else t.reject wanted
  variant known t := do
    let t ← p.follow t
    t.variant known
  skip t := if t.isWhole then pure () else malformed

/-- Reads a whole text: it holds one document. -/
def readAll {α : Type} (read : Source Reader Tree → Tree → Reader α) (text : List Char) :
    Except Fault α :=
  let p := parse (tokens text)
  match (read (source p) p.root).run 0 with
  | .ok (a, _) => if p.complete then .ok a else .error .malformed
  | .error e => .error e

end TreeSchema.Yaml
