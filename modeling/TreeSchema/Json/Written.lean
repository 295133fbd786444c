/-
# TreeSchema.Json.Written — documents as JSON text.

The compact form has no white space at all; the pretty form puts each item on a line of its own,
indented by two blanks a level.
-/
import TreeSchema.Document
import TreeSchema.Text.Hex

namespace TreeSchema.Json

/-- One character inside a JSON string: the two characters with a meaning there and the controls are
escaped, everything else stands for itself. -/
def escapeChar (c : Char) : List Char :=
  if c = '\x22' then ['\\', '\x22']
  else if c = '\\' then ['\\', '\\']
  else if c = '\x08' then ['\\', 'b']
  else if c = '\x0c' then ['\\', 'f']
  else if c = '\n' then ['\\', 'n']
  else if c = '\r' then ['\\', 'r']
  else if c = '\t' then ['\\', 't']
  else if c.toNat < 0x20 then
    '\\' :: 'u' :: Text.hexDigits Text.hexDigit 4 c.toNat
  else [c]

/-- A text as a JSON string. -/
def quoted (text : String) : String :=
  String.ofList ('\x22' :: text.toList.flatMap escapeChar ++ ['\x22'])

mutual

/-- A document without white space. -/
def compact : Document → String
  | .null => "null"
  | .flag b => toString b
  | .text s => quoted s
  | .list items => "[" ++ ",".intercalate (compactItems items) ++ "]"
  | .record entries => "\x7b" ++ ",".intercalate (compactEntries entries) ++ "\x7d"

/-- The items of a list without white space. -/
def compactItems : List Document → List String
  | [] => []
  | d :: ds => compact d :: compactItems ds

/-- The entries of a record without white space. -/
def compactEntries : List (String × Document) → List String
  | [] => []
  | (name, d) :: rest => (quoted name ++ ":" ++ compact d) :: compactEntries rest

end

/-- A line end and the indentation of a level. -/
def lineBreak (level : Nat) : String :=
  "\n" ++ String.ofList (List.replicate (2 * level) ' ')

/-- Brackets around items, each on its own line; an empty pair stays closed. -/
def bracketed (opening closing : String) (level : Nat) (items : List String) : String :=
  if items.isEmpty then opening ++ closing
  else
    opening ++ lineBreak (level + 1) ++ ("," ++ lineBreak (level + 1)).intercalate items
      ++ lineBreak level ++ closing

mutual

/-- A document at a level of indentation. -/
def prettyAt (level : Nat) : Document → String
  | .null => "null"
  | .flag b => toString b
  | .text s => quoted s
  | .list items => bracketed "[" "]" level (prettyItems (level + 1) items)
  | .record entries => bracketed "\x7b" "\x7d" level (prettyEntries (level + 1) entries)

/-- The items of a list at a level. -/
def prettyItems (level : Nat) : List Document → List String
  | [] => []
  | d :: ds => prettyAt level d :: prettyItems level ds

/-- The entries of a record at a level. -/
def prettyEntries (level : Nat) : List (String × Document) → List String
  | [] => []
  | (name, d) :: rest => (quoted name ++ ": " ++ prettyAt level d) :: prettyEntries level rest

end

/-- A document with each item on a line of its own. -/
def pretty (d : Document) : String := prettyAt 0 d

end TreeSchema.Json
