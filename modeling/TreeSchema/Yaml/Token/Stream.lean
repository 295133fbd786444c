/-
# TreeSchema.Yaml.Token.Stream — all tokens of a text.

A key is seen to be one only at the colon behind it, so tokens wait in a queue for as long as one of
them might turn out to begin a key.  A text breaks off where no token can be read; tokens that still
wait then are lost.
-/
import TreeSchema.Yaml.Token.Block
import TreeSchema.Yaml.Token.Plain
import TreeSchema.Yaml.Token.Property

namespace TreeSchema.Yaml

/-- A place where a key may have begun. -/
structure PossibleKey where
  /-- The number of the first token of the key. -/
  number : Nat
  /-- Whether nothing but a key can stand there. -/
  required : Bool
  index : Nat
  line : Nat
  column : Nat

/-- A text on the way to its tokens. -/
structure Scan where
  cursor : Cursor
  /-- Tokens that have been read but not handed over. -/
  queue : List Token
  /-- How many tokens have been handed over. -/
  taken : Nat
  /-- The columns of the open block collections, innermost first. -/
  columns : List Nat
  /-- Whether a key may begin here. -/
  keyAllowed : Bool
  /-- Where a key may have begun outside all flow collections. -/
  blockKey : Option PossibleKey
  /-- The same for each open flow collection, innermost first. -/
  flowKeys : List (Option PossibleKey)

namespace Scan

/-- The start of a text. -/
def start (text : List Char) : Scan := ⟨.start text, [], 0, [], true, none, []⟩

/-- Whether a flow collection is open. -/
def inFlow (s : Scan) : Bool := !s.flowKeys.isEmpty

/-- The column of the innermost open block collection, or one before the first column. -/
def indent (s : Scan) : Int := (s.columns.head?.map Int.ofNat).getD (-1)

/-- Puts a token at the end of the queue. -/
def push (s : Scan) (t : Token) : Scan := { s with queue := s.queue ++ [t] }

/-- Puts a token before the token with a number. -/
def insert (s : Scan) (number : Nat) (t : Token) : Scan :=
  let n := number - s.taken
  { s with queue := s.queue.take n ++ t :: s.queue.drop n }

/-- Goes on at another place. -/
def moveTo (s : Scan) (c : Cursor) : Scan := { s with cursor := c }

/-- Says whether a key may begin next. -/
def allowKey (s : Scan) (allowed : Bool) : Scan := { s with keyAllowed := allowed }

/-! ## Keys -/

/-- The place where a key may have begun in the innermost flow collection or block. -/
def key? (s : Scan) : Option PossibleKey :=
  match s.flowKeys with
  | k :: _ => k
  | [] => s.blockKey

/-- Replaces that place. -/
def setKey (s : Scan) (k : Option PossibleKey) : Scan :=
  match s.flowKeys with
  | _ :: outer => { s with flowKeys := k :: outer }
  | [] => { s with blockKey := k }

/-- Decides that no key has begun; an error where one is required. -/
def dropKey (s : Scan) : Option Scan :=
  if s.key?.any PossibleKey.required then none else some (s.setKey none)

/-- Notes that a key may begin here. -/
def noteKey (s : Scan) : Option Scan :=
  if s.keyAllowed then do
    let s ← s.dropKey
    let c := s.cursor
    pure
      (s.setKey
        (some
          { number := s.taken + s.queue.length
            required := !s.inFlow && s.indent == (c.column : Int)
            index := c.index, line := c.line, column := c.column }))
  else some s

/-- Whether a key that began at a place must have ended before another: it is limited to one line and
to 1024 characters. -/
def PossibleKey.isOver (k : PossibleKey) (c : Cursor) : Bool :=
  k.line < c.line || k.index + 1024 < c.index

/-- A possible key, unless it must have ended.  Nothing at all if it is required. -/
def keepKey (c : Cursor) : Option PossibleKey → Option (Option PossibleKey)
  | some k => if PossibleKey.isOver k c then if k.required then none else some none else some (some k)
  | none => some none

/-- Drops the possible keys that must have ended. -/
def expireKeys (s : Scan) : Option Scan := do
  let blockKey ← keepKey s.cursor s.blockKey
  let flowKeys ← s.flowKeys.mapM (keepKey s.cursor)
  pure { s with blockKey, flowKeys }

/-! ## Indentation -/

/-- Closes the block collections that are further in than a column. -/
def closeBlocks (s : Scan) (column : Int) : Scan :=
  if s.inFlow then s
  else
    let closed := s.columns.takeWhile fun n => column < Int.ofNat n
    { s with columns := s.columns.drop closed.length
             queue := s.queue ++ closed.map fun _ => .blockEnd }

/-- Opens a block collection in a column, unless one is open there. -/
def openBlock (s : Scan) (column number : Nat) (t : Token) : Scan :=
  if s.inFlow || (column : Int) ≤ s.indent then s
  else { s.insert number t with columns := column :: s.columns }

/-- Opens a block collection here; nothing if none may begin here. -/
def openBlockHere (s : Scan) (t : Token) : Option Scan :=
  if s.inFlow then some s
  else if s.keyAllowed then
    some (s.openBlock s.cursor.column (s.taken + s.queue.length) t)
  else none

/-! ## Single tokens -/

/-- Passes over white space and comments to the next token. -/
def skipToToken : (fuel : Nat) → Scan → Scan
  | 0, s => s
  | fuel + 1, s =>
    let tabs := s.inFlow || !s.keyAllowed
    let c := s.cursor.skipWhile fun x => x == ' ' || tabs && x == '\t'
    let c := if c.sees '#' then c.skipWhile fun x => !isBreak x else c
    match c.lineBreak? with
    | some (_, c') => skipToToken fuel ((s.moveTo c').allowKey (s.keyAllowed || !s.inFlow))
    | none => s.moveTo c

/-- Closes everything before a mark that belongs to no collection. -/
def closeAll (s : Scan) : Option Scan := do
  let s ← (s.closeBlocks (-1)).dropKey
  pure (s.allowKey false)

/-- The end of the text. -/
def atEnd (s : Scan) : Option Scan := do
  let s ← s.closeAll
  pure (s.push .streamEnd)

/-- A directive. -/
def directive (s : Scan) : Option Scan := do
  let s ← s.closeAll
  let (t, c) ← scanDirective s.cursor
  pure ((s.moveTo c).push t)

/-- A mark that begins or ends a document. -/
def documentMark (s : Scan) (t : Token) : Option Scan := do
  let s ← s.closeAll
  pure ((s.moveTo (s.cursor.skip 3)).push t)

/-- Moves over a mark of one character. -/
def mark (s : Scan) (t : Token) : Scan := (s.moveTo (s.cursor.skip 1)).push t

/-- The start of a flow collection. -/
def openFlow (s : Scan) (t : Token) : Option Scan := do
  let s ← s.noteKey
  pure (({ s with flowKeys := none :: s.flowKeys }.allowKey true).mark t)

/-- The end of a flow collection. -/
def closeFlow (s : Scan) (t : Token) : Option Scan := do
  let s ← s.dropKey
  pure (({ s with flowKeys := s.flowKeys.drop 1 }.allowKey false).mark t)

/-- A comma. -/
def flowEntry (s : Scan) : Option Scan := do
  let s ← s.dropKey
  pure ((s.allowKey true).mark .flowEntry)

/-- A hyphen before an item. -/
def blockEntry (s : Scan) : Option Scan := do
  let s ← s.openBlockHere .blockSequenceStart
  let s ← s.dropKey
  pure ((s.allowKey true).mark .blockEntry)

/-- A question mark before a key. -/
def keyMark (s : Scan) : Option Scan := do
  let s ← s.openBlockHere .blockMappingStart
  let s ← s.dropKey
  pure ((s.allowKey !s.inFlow).mark .key)

/-- A colon before a value.  If a key may have begun, it did. -/
def valueMark (s : Scan) : Option Scan :=
  match s.key? with
  | some k =>
    let s := (s.insert k.number .key).openBlock k.column k.number .blockMappingStart
    some (((s.setKey none).allowKey false).mark .value)
  | none => do
    let s ← s.openBlockHere .blockMappingStart
    pure ((s.allowKey !s.inFlow).mark .value)

/-- A token that may begin a key. -/
def keyStart (s : Scan) (scan : Cursor → Option (Token × Cursor)) : Option Scan := do
  let s ← s.noteKey
  let (t, c) ← scan s.cursor
  pure (((s.allowKey false).moveTo c).push t)

/-- An anchor or alias. -/
def name (s : Scan) (make : String → Token) : Option Scan :=
  s.keyStart fun c => (scanName c).map fun p => (make p.1, p.2)

/-- A quoted scalar. -/
def quoted (s : Scan) (double : Bool) : Option Scan :=
  s.keyStart fun c =>
    (scanQuoted double c).map fun p =>
      (.scalar (String.ofList p.1) (if double then .doubleQuoted else .singleQuoted), p.2)

/-- A block scalar, after which a key may begin. -/
def block (s : Scan) (folded : Bool) : Option Scan := do
  let s ← s.dropKey
  let (text, c) ← scanBlock folded s.indent s.cursor
  let t := Token.scalar (String.ofList text) (if folded then .folded else .literal)
  pure (((s.allowKey true).moveTo c).push t)

/-- A plain scalar.  A key may begin after it if it is followed by a line end. -/
def plain (s : Scan) : Option Scan := do
  let s ← s.noteKey
  let p ← scanPlain s.inFlow s.indent s.cursor
  pure (((s.allowKey p.crossed).moveTo p.cursor).push (.scalar (String.ofList p.text) .plain))

/-- A character with which no plain scalar begins, unless what follows says otherwise. -/
def isIndicator (c : Char) : Bool :=
  "-?:,[]\x7b\x7d#&*!|>'\"%@\x60".toList.contains c

/-- Whether a plain scalar begins at a place. -/
def startsPlain (s : Scan) (x : Char) : Bool :=
  let next := s.cursor.peekAt 1
  !(isGap (some x) || isIndicator x) || x == '-' && !next.any isSpace
    || !s.inFlow && (x == '?' || x == ':') && !isGap next

/-- Reads one token, and with it those that a change of indentation stands for. -/
def fetch (s : Scan) : Option Scan := do
  let s ← (s.skipToToken (s.cursor.rest.length + 1)).expireKeys
  let s := s.closeBlocks s.cursor.column
  let c := s.cursor
  let gap := isGap (c.peekAt 1)
  match c.peek with
  | none => s.atEnd
  | some x =>
    if c.column == 0 && x == '%' then s.directive
    else if c.seesMarks '-' then s.documentMark .documentStart
    else if c.seesMarks '.' then s.documentMark .documentEnd
    else if x == '[' then s.openFlow .flowSequenceStart
    else if x == '\x7b' then s.openFlow .flowMappingStart
    else if x == ']' then s.closeFlow .flowSequenceEnd
    else if x == '\x7d' then s.closeFlow .flowMappingEnd
    else if x == ',' then s.flowEntry
    else if x == '-' && gap then s.blockEntry
    else if x == '?' && (s.inFlow || gap) then s.keyMark
    else if x == ':' && (s.inFlow || gap) then s.valueMark
    else if x == '*' then s.name .alias
    else if x == '&' then s.name .anchor
    else if x == '!' then s.keyStart (scanTag s.inFlow)
    else if x == '|' && !s.inFlow then s.block false
    else if x == '>' && !s.inFlow then s.block true
    else if x == '\x27' then s.quoted false
    else if x == '\x22' then s.quoted true
    else if s.startsPlain x then s.plain
    else none

/-- How many tokens may be handed over: those before the first that may begin a key. -/
def settled (s : Scan) : Nat :=
  (s.blockKey :: s.flowKeys).foldl
    (fun n k => match k with | some k => min n (k.number - s.taken) | none => n) s.queue.length

/-- All tokens from here on. -/
def run : (fuel : Nat) → Scan → List Token
  | 0, _ => []
  | fuel + 1, s =>
    match s.expireKeys with
    | none => []
    | some s =>
      let n := s.settled
      let ready := s.queue.take n
      if ready.contains .streamEnd then ready
      else
        ready
          ++ match { s with queue := s.queue.drop n, taken := s.taken + n }.fetch with
            | none => []
            | some s => run fuel s

end Scan

/-- The tokens of a text.  They end with `Token.streamEnd` unless the text breaks off.  A character
that no text may hold breaks it off at once. -/
def tokens (text : List Char) : List Token :=
  if text.all isAllowed then (Scan.start text).run (text.length + 2) else []

end TreeSchema.Yaml
