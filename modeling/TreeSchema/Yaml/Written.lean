/-
# TreeSchema.Yaml.Written — documents as YAML text.

Every text is written so that it reads back as itself: without quotes where that is possible, in
quotes where it would denote something else or where a character has a meaning, and line by line if
it has several lines.  No line is ever folded.
-/
import TreeSchema.Document
import TreeSchema.Yaml.Cursor
import TreeSchema.Yaml.Scalar
import TreeSchema.Yaml.Token

namespace TreeSchema.Yaml

/-! ## How a text is spelt -/

/-- A character that may stand for itself in any scalar. -/
def isPrintable (c : Char) : Bool :=
  isAllowed c && c != '\t' && c != '\r' && c != '\x85'

/-- Whether a character that passes `p` stands right before one that passes `q`. -/
def hasPair (p q : Char → Bool) : List Char → Bool
  | a :: b :: rest => p a && q b || hasPair p q (b :: rest)
  | _ => false

/-- Whether a colon ends the text or has white space behind it. -/
def hasKeyMark : List Char → Bool
  | [] => false
  | c :: rest => c == ':' && isGap rest.head? || hasKeyMark rest

/-- Whether a text would begin a comment, a collection, a document or another spelling. -/
def hasIndicator (cs : List Char) : Bool :=
  let startsWith (mark : Char) : Bool := cs.take 3 == [mark, mark, mark]
  let first :=
    match cs with
    | [] => false
    | c :: rest =>
      "#,[]\x7b\x7d&*!|>'\"%@\x60".toList.contains c || (c == '?' || c == '-') && isGap rest.head?
  startsWith '-' || startsWith '.' || first || hasKeyMark cs
    || hasPair (fun c => isGap (some c)) (· == '#') cs

/-- Whether a text without quotes denotes something other than itself. -/
def denotesOther (text : String) : Bool :=
  match found text with
  | .text _ => isPadded text.toList
  | _ => true

/-- Whether a character of a text must be escaped, or a line of it ends in a blank. -/
def needsEscapes (cs : List Char) : Bool :=
  cs.any (fun c => !isPrintable c) || hasPair (· == ' ') isBreak cs

/-- Whether a text can be spelt without quotes on one line. -/
def fitsPlain (cs : List Char) : Bool :=
  !needsEscapes cs && !cs.any isBreak && !hasIndicator cs
    && cs.head? != some ' ' && cs.getLast? != some ' '

/-- The spelling of a text. -/
def spelling (text : String) : ScalarStyle :=
  let cs := text.toList
  if cs.contains '\n' then
    if needsEscapes cs || cs.getLast? == some ' ' then .doubleQuoted else .literal
  else if !denotesOther text && fitsPlain cs then .plain
  else if needsEscapes cs || hasPair isBreak (· == ' ') cs then .doubleQuoted
  else .singleQuoted

/-! ## Scalars -/

/-- Blanks before a line. -/
def pad (indent : Nat) : List Char := List.replicate indent ' '

/-- A text with every line but the first indented; empty lines stay empty.  `fresh` says whether a
line has just begun. -/
def indented (indent : Nat) : (fresh : Bool) → List Char → List Char
  | _, [] => []
  | fresh, c :: rest =>
    if isBreak c then c :: indented indent true rest
    else (if fresh then pad indent else []) ++ c :: indented indent false rest

/-- A text in single quotes, in which a quote is written twice. -/
def singleQuoted (indent : Nat) (cs : List Char) : List Char :=
  let inside := indented indent false (cs.flatMap fun c => if c = '\x27' then [c, c] else [c])
  let ending := if cs.getLast?.any isBreak then pad indent else []
  '\x27' :: inside ++ ending ++ ['\x27']

/-- A character inside double quotes. -/
def escaped (c : Char) : List Char :=
  let n := c.toNat
  if c = '\x22' ∨ c = '\\' then ['\\', c]
  else if isPrintable c && !isBreak c then [c]
  else if n = 0x00 then ['\\', '0']
  else if n = 0x07 then ['\\', 'a']
  else if n = 0x08 then ['\\', 'b']
  else if n = 0x09 then ['\\', 't']
  else if n = 0x0A then ['\\', 'n']
  else if n = 0x0B then ['\\', 'v']
  else if n = 0x0C then ['\\', 'f']
  else if n = 0x0D then ['\\', 'r']
  else if n = 0x1B then ['\\', 'e']
  else if n = 0x85 then ['\\', 'N']
  else if n = 0x2028 then ['\\', 'L']
  else if n = 0x2029 then ['\\', 'P']
  else if n ≤ 0xFF then '\\' :: 'x' :: Text.hexDigits Text.hexDigitUpper 2 n
  else if n ≤ 0xFFFF then '\\' :: 'u' :: Text.hexDigits Text.hexDigitUpper 4 n
  else '\\' :: 'U' :: Text.hexDigits Text.hexDigitUpper 8 n

/-- A text in double quotes. -/
def doubleQuoted (cs : List Char) : List Char :=
  '\x22' :: cs.flatMap escaped ++ ['\x22']

/-- What stands behind the mark of a literal text: how far it is indented, if its first line does not
show that, and what becomes of the line ends at its end. -/
def literalHints (cs : List Char) : List Char :=
  let step := if cs.head?.any fun c => c == ' ' || isBreak c then ['2'] else []
  let chomping :=
    match cs.reverse with
    | c :: rest =>
      if !isBreak c then ['-'] else if rest.head?.all isBreak then ['+'] else []
    | [] => ['-']
  step ++ chomping

/-- A text line by line, with a line end at its end. -/
def literal (indent : Nat) (cs : List Char) : List Char :=
  let ending := if cs.getLast?.any isBreak then [] else ['\n']
  '|' :: literalHints cs ++ '\n' :: indented indent true cs ++ ending

/-- A text as a scalar, with a line end at its end; further lines are indented. -/
def scalar (indent : Nat) (text : String) : String :=
  let cs := text.toList
  match spelling text with
  | .singleQuoted => String.ofList (singleQuoted indent cs ++ ['\n'])
  | .doubleQuoted => String.ofList (doubleQuoted cs ++ ['\n'])
  | .literal => String.ofList (literal indent cs)
  | .plain | .folded => text ++ "\n"

/-! ## Documents -/

/-- Parts of a document that start in one column, the first of them where the line stands. -/
def stacked (column : Nat) (parts : List String) : String :=
  (String.ofList (pad column)).intercalate parts

mutual

/-- A document that starts in a column of the current line. -/
def writtenAt (column : Nat) : Document → String
  | .null => "null\n"
  | .flag b => toString b ++ "\n"
  | .text s => scalar column s
  | .list items =>
    if items.isEmpty then "[]\n" else stacked column (writtenItems (column + 2) items)
  | .record entries =>
    if entries.isEmpty then "\x7b\x7d\n" else stacked column (writtenEntries column entries)

/-- The items of a list, each behind a hyphen. -/
def writtenItems (column : Nat) : List Document → List String
  | [] => []
  | d :: ds => ("- " ++ writtenAt column d) :: writtenItems column ds

/-- The entries of a record.  The items of a list stand under the name of the entry, the entries of a
record further in. -/
def writtenEntries (column : Nat) : List (String × Document) → List String
  | [] => []
  | (name, d) :: rest =>
    let below (inner : Nat) : String := "\n" ++ String.ofList (pad inner)
    let gap :=
      match d with
      | .list (_ :: _) => below column
      | .record (_ :: _) => below (column + 2)
      | _ => " "
    let inner :=
      match d with
      | .list _ => column
      | _ => column + 2
    (name ++ ":" ++ gap ++ writtenAt inner d) :: writtenEntries column rest

end

/-- A document as YAML text. -/
def written (d : Document) : String :=
  match d with
  | .text s => scalar 2 s
  | d => writtenAt 0 d

end TreeSchema.Yaml
