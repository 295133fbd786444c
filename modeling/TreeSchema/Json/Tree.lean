/-
# TreeSchema.Json.Tree — the values of a JSON text.

Tokens are put together with a stack of open lists and maps.  Where a token does not fit, everything
still open is closed as it stands and marked as not whole, so that a reader sees the values before
that place and learns of the break when it gets there.
-/
import TreeSchema.Json.Token

namespace TreeSchema.Json

/-- A value of a text that may break off. -/
inductive Tree where
  | null
  | flag (b : Bool)
  | number (n : Numeral)
  | string (content : Option String)
  | list (items : List Tree) (whole : Bool)
  | map (entries : List (Tree × Tree)) (whole : Bool)
  /-- Nothing can be read here. -/
  | broken

instance : Inhabited Tree := ⟨.broken⟩

/-- A list or map that is still open; what it holds is in reverse order. -/
inductive Frame where
  | list (items : List Tree)
  | map (entries : List (Tree × Tree))
  /-- A map whose last entry has its name but not its value. -/
  | entry (name : Tree) (entries : List (Tree × Tree))

/-- What may come next. -/
inductive Awaited where
  | value
  | valueOrClose
  | name
  | nameOrClose
  | colon
  | commaOrClose
deriving DecidableEq

/-- Closes everything that is open around a value, none of it whole. -/
def cutOff : Tree → List Frame → Tree
  | t, [] => t
  | t, .list items :: stack => cutOff (.list (t :: items).reverse false) stack
  | t, .map entries :: stack => cutOff (.map ((t, .broken) :: entries).reverse false) stack
  | t, .entry name entries :: stack =>
    cutOff (.map ((name, t) :: entries).reverse false) stack

/-- Closes everything that is open, none of it whole. -/
def cut : List Frame → Tree
  | [] => .broken
  | .list items :: stack => cutOff (.list items.reverse false) stack
  | .map entries :: stack => cutOff (.map entries.reverse false) stack
  | .entry name entries :: stack => cutOff (.map ((name, .broken) :: entries).reverse false) stack

/-- The value of a token that is a value by itself. -/
def Token.leaf? : Token → Option Tree
  | .null => some .null
  | .flag b => some (.flag b)
  | .number n => some (.number n)
  | .string content => some (.string content)
  | _ => none

/-- What a token would be if it began a value. -/
def Token.start? : Token → Option Tree
  | .bracketOpen => some (.list [] false)
  | .braceOpen => some (.map [] false)
  | t => t.leaf?

/-- A value that is complete: the root, or a part of the innermost open list or map. -/
inductive Placed where
  | root (t : Tree)
  | inside (stack : List Frame)

/-- Puts a complete value where it belongs. -/
def place (t : Tree) : List Frame → Placed
  | [] => .root t
  | .list items :: stack => .inside (.list (t :: items) :: stack)
  | .entry name entries :: stack => .inside (.map ((name, t) :: entries) :: stack)
  | .map entries :: stack => .inside (.map ((t, .broken) :: entries) :: stack)

/-- What a token does to the open lists and maps. -/
inductive Effect where
  /-- Goes on with a stack. -/
  | go (awaited : Awaited) (stack : List Frame)
  /-- Completes a value. -/
  | complete (t : Tree) (stack : List Frame)
  /-- Does not fit. -/
  | stop (t : Tree)

/-- The effect of a token that begins a value. -/
def Token.begin (t : Token) (stack : List Frame) : Effect :=
  match t with
  | .bracketOpen => .go .valueOrClose (.list [] :: stack)
  | .braceOpen => .go .nameOrClose (.map [] :: stack)
  | t =>
    match t.leaf? with
    | some leaf => .complete leaf stack
    | none => .stop (cut stack)

/-- The effect of a token that stands for the name of an entry.  Only a string is a name; anything
else is kept as the name of an entry that breaks off. -/
def Token.name (t : Token) : List Frame → Effect
  | .map entries :: stack =>
    match t with
    | .string content => .go .colon (.entry (.string content) entries :: stack)
    | t =>
      match t.start? with
      | some tree => .stop (cutOff tree (.map entries :: stack))
      | none => .stop (cut (.map entries :: stack))
  | stack => .stop (cut stack)

/-- The effect of a token. -/
def Token.effect (t : Token) (awaited : Awaited) (stack : List Frame) : Effect :=
  match awaited, t, stack with
  | .valueOrClose, .bracketClose, .list items :: outer =>
    .complete (.list items.reverse true) outer
  | .nameOrClose, .braceClose, .map entries :: outer =>
    .complete (.map entries.reverse true) outer
  | .commaOrClose, .comma, .list items :: outer => .go .value (.list items :: outer)
  | .commaOrClose, .comma, .map entries :: outer => .go .name (.map entries :: outer)
  | .commaOrClose, .bracketClose, .list items :: outer =>
    .complete (.list items.reverse true) outer
  | .commaOrClose, .braceClose, .map entries :: outer =>
    .complete (.map entries.reverse true) outer
  | .commaOrClose, _, _ => .stop (cut stack)
  | .colon, .colon, _ => .go .value stack
  | .colon, _, _ => .stop (cut stack)
  | .value, t, _ | .valueOrClose, t, _ => t.begin stack
  | .name, t, _ | .nameOrClose, t, _ => t.name stack

/-- Puts tokens together; the answer is the root and whether nothing follows it. -/
def assemble : List Token → Awaited → List Frame → Tree × Bool
  | [], _, stack => (cut stack, false)
  | t :: ts, awaited, stack =>
    match t.effect awaited stack with
    | .stop tree => (tree, false)
    | .go awaited' stack' => assemble ts awaited' stack'
    | .complete tree stack' =>
      match place tree stack' with
      | .root root => (root, ts.isEmpty)
      | .inside stack'' => assemble ts .commaOrClose stack''

/-- The root of a text, and whether nothing follows it. -/
def parse (input : List Text.Glyph) : Tree × Bool :=
  assemble (tokens input) .value []

end TreeSchema.Json
