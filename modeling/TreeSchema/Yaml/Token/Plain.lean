/-
# TreeSchema.Yaml.Token.Plain — scalars without quotes.

A plain scalar goes on over lines as long as they are indented, and ends before a mark that could not
be part of it.
-/
import TreeSchema.Yaml.Token
import TreeSchema.Yaml.Token.Folded

namespace TreeSchema.Yaml

/-- The characters of a word of a plain scalar; nothing if a colon stands before a flow mark, where
it would be neither part of the scalar nor a mark. -/
def plainWord (flow : Bool) : List Char → Option (List Char)
  | [] => some []
  | c :: rest =>
    if isSpace c || isBreak c then some []
    else if flow && c == ':' && rest.head?.any fun d => isFlowMark d || d == '?' then none
    else if c == ':' && isGap rest.head? then some []
    else if flow && isFlowMark c then some []
    else (plainWord flow rest).map (c :: ·)

/-- A plain scalar read so far. -/
structure PlainScan where
  text : List Char
  /-- Whether white space with a line end was passed after the last word. -/
  crossed : Bool
  cursor : Cursor

/-- Goes on with a plain scalar after white space `f`. -/
def scanPlainFrom (flow : Bool) (least : Int) :
    (fuel : Nat) → (text : List Char) → Fold → Cursor → Option PlainScan
  | 0, text, f, c => some ⟨text, f.crossed, c⟩
  | fuel + 1, text, f, c =>
    if c.atDocumentMark || c.sees '#' then some ⟨text, f.crossed, c⟩
    else
      match plainWord flow c.rest with
      | none => none
      | some word =>
        let text := if word.isEmpty then text else text ++ f.text ++ word
        let f := if word.isEmpty then f else Fold.none
        let c := c.skip word.length
        if c.peek.any fun x => isSpace x || isBreak x then
          match Fold.scan (some least) (c.rest.length + 1) f c with
          | none => none
          | some (f, c) =>
            if !flow && decide ((c.column : Int) < least) then some ⟨text, f.crossed, c⟩
            else scanPlainFrom flow least fuel text f c
        else some ⟨text, f.crossed, c⟩

/-- A plain scalar inside a block of the given indentation. -/
def scanPlain (flow : Bool) (indent : Int) (c : Cursor) : Option PlainScan :=
  scanPlainFrom flow (indent + 1) (c.rest.length + 1) [] Fold.none c

end TreeSchema.Yaml
