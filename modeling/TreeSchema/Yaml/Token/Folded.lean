/-
# TreeSchema.Yaml.Token.Folded — white space inside scalars.

Between the words of a plain or quoted scalar white space on one line is kept.  A line end with the
white space around it becomes a space, or as many line ends as there are empty lines.
-/
import TreeSchema.Yaml.Cursor

namespace TreeSchema.Yaml

/-- The white space between two words of a scalar. -/
structure Fold where
  /-- White space before any line end. -/
  blanks : List Char
  /-- The end of the line of the word before; absent if it was removed by an escape. -/
  lineEnd : Option Char
  /-- The ends of the empty lines that follow. -/
  empties : List Char
  /-- Whether the line of the word before was left. -/
  crossed : Bool

namespace Fold

/-- No white space. -/
def none : Fold := ⟨[], Option.none, [], false⟩

/-- A line end that was removed by an escape. -/
def removed : Fold := ⟨[], Option.none, [], true⟩

/-- What stands for the white space in the scalar. -/
def text (f : Fold) : List Char :=
  if f.crossed then
    match f.lineEnd with
    | some '\n' => if f.empties.isEmpty then [' '] else f.empties
    | lineEnd => lineEnd.toList ++ f.empties
  else f.blanks

/-- The same white space followed by a blank. -/
def pushBlank (f : Fold) (c : Char) : Fold :=
  if f.crossed then f else { f with blanks := f.blanks ++ [c] }

/-- The same white space followed by a line end. -/
def pushBreak (f : Fold) (c : Char) : Fold :=
  if f.crossed then { f with empties := f.empties ++ [c] } else ⟨[], some c, [], true⟩

/-- Takes white space.  With an indentation `least`, a tab before that column of a new line is an
error. -/
def scan (least : Option Int) : (fuel : Nat) → Fold → Cursor → Option (Fold × Cursor)
  | 0, f, c => some (f, c)
  | fuel + 1, f, c =>
    match c.peek with
    | some x =>
      if isSpace x then
        if f.crossed && x == '\t' && least.any fun n => decide ((c.column : Int) < n) then
          Option.none
        else scan least fuel (f.pushBlank x) (c.skip 1)
      else
        match c.lineBreak? with
        | some (b, c') => scan least fuel (f.pushBreak b) c'
        | Option.none => some (f, c)
    | Option.none => some (f, c)

end Fold

end TreeSchema.Yaml
