/-
# TreeSchema.Yaml.Token.Quoted — scalars in quotes.

In single quotes a quote is written twice and nothing else is special.  In double quotes a backslash
starts an escape, and before a line end it removes that line end.
-/
import TreeSchema.Text.Hex
import TreeSchema.Yaml.Token.Folded

namespace TreeSchema.Yaml

/-- The character of an escape of two characters. -/
def shortEscape? (c : Char) : Option Char :=
  match c with
  | '0' => some '\x00'
  | 'a' => some '\x07'
  | 'b' => some '\x08'
  | 't' | '\t' => some '\t'
  | 'n' => some '\n'
  | 'v' => some '\x0b'
  | 'f' => some '\x0c'
  | 'r' => some '\r'
  | 'e' => some '\x1b'
  | ' ' | '/' | '\\' | '\x22' => some c
  | 'N' => some '\x85'
  | '_' => some '\xa0'
  | 'L' => some '\u2028'
  | 'P' => some '\u2029'
  | _ => none

/-- How many hexadecimal digits an escape has. -/
def escapeLength? (c : Char) : Option Nat :=
  match c with
  | 'x' => some 2
  | 'u' => some 4
  | 'U' => some 8
  | _ => none

/-- The character of an escape with `n` digits at the front. -/
def longEscape? (n : Nat) (input : List Char) : Option Char := do
  let digits := input.take n
  if digits.length < n then none
  else
    let value ← Text.natural? 16 digits
    if 0xD800 ≤ value ∧ value ≤ 0xDFFF ∨ 0x10FFFF < value then none
    else some (Char.ofNat value)

/-- What ends a word of a quoted scalar. -/
inductive WordEnd where
  /-- White space, the closing quote or the end of the text comes next. -/
  | plain
  /-- A line end was removed by an escape. -/
  | removedBreak

/-- A word of a quoted scalar: its characters, how it ends and the place after it.  Nothing if an
escape is none. -/
def quotedWord (double : Bool) :
    (fuel : Nat) → (word : List Char) → Cursor → Option (List Char × WordEnd × Cursor)
  | 0, word, c => some (word, .plain, c)
  | fuel + 1, word, c =>
    match c.rest with
    | [] => some (word, .plain, c)
    | x :: rest =>
      if isSpace x || isBreak x then some (word, .plain, c)
      else if double then
        if x == '\x22' then some (word, .plain, c)
        else if x == '\\' then
          match rest with
          | [] => none
          | e :: rest' =>
            if isBreak e then some (word, .removedBreak, (c.skip 1).skipBreak)
            else
              match shortEscape? e, escapeLength? e with
              | some ch, _ => quotedWord double fuel (word ++ [ch]) (c.skip 2)
              | none, some n =>
                match longEscape? n rest' with
                | some ch => quotedWord double fuel (word ++ [ch]) (c.skip (2 + n))
                | none => none
              | none, none => none
        else quotedWord double fuel (word ++ [x]) (c.skip 1)
      else if x == '\x27' then
        if rest.head? == some '\x27' then quotedWord double fuel (word ++ [x]) (c.skip 2)
        else some (word, .plain, c)
      else quotedWord double fuel (word ++ [x]) (c.skip 1)

/-- Goes on with a quoted scalar. -/
def scanQuotedFrom (double : Bool) :
    (fuel : Nat) → (text : List Char) → Cursor → Option (List Char × Cursor)
  | 0, _, _ => none
  | fuel + 1, text, c =>
    if c.atDocumentMark || c.rest.isEmpty then none
    else
      match quotedWord double (c.rest.length + 1) [] c with
      | none => none
      | some (word, ending, c) =>
        let text := text ++ word
        if c.sees (if double then '\x22' else '\x27') then some (text, c.skip 1)
        else
          let f : Fold :=
            match ending with
            | .plain => Fold.none
            | .removedBreak => Fold.removed
          match Fold.scan none (c.rest.length + 1) f c with
          | none => none
          | some (f, c) => scanQuotedFrom double fuel (text ++ f.text) c

/-- A quoted scalar that starts at the opening quote. -/
def scanQuoted (double : Bool) (c : Cursor) : Option (List Char × Cursor) :=
  let c := c.skip 1
  scanQuotedFrom double (c.rest.length + 1) [] c

end TreeSchema.Yaml
