/-
# TreeSchema.Yaml.Tree — the values of a YAML text.

Tokens are put together with a stack of open lists and maps.  Where a token does not fit, everything
still open is closed as it stands and marked as not whole, so that a reader sees the values before
that place and learns of the break when it gets there.  An alias keeps the number of its anchor and
is followed only when it is read.
-/
import TreeSchema.Yaml.Token

namespace TreeSchema.Yaml

/-- A value of a text that may break off. -/
inductive Tree where
  /-- The value that an anchor marks. -/
  | alias (anchor : Nat)
  | scalar (tag : Option String) (text : String) (style : ScalarStyle)
  | list (tag : Option String) (items : List Tree) (whole : Bool)
  | map (tag : Option String) (entries : List (Tree × Tree)) (whole : Bool)
  /-- Nothing can be read here. -/
  | broken
  /-- The text holds no value at all. -/
  | absent

namespace Tree

instance : Inhabited Tree := ⟨broken⟩

/-- What stands where a value is left out. -/
def empty : Tree := scalar none "" .plain

end Tree

/-! ## Open lists and maps -/

/-- How a list is spelt. -/
inductive ListForm where
  | block
  /-- Items under a key, no further in than the key. -/
  | flush
  | flow
deriving DecidableEq

/-- How a map is spelt. -/
inductive MapForm where
  | block
  | flow
  /-- A flow map whose current key has no mark, and so no value. -/
  | lone
  /-- A single entry among the items of a flow list. -/
  | pair
deriving DecidableEq

/-- What precedes the content of a value. -/
structure Properties where
  /-- Which of the anchors of the text it is, in order. -/
  serial : Option Nat
  tag : Option String

/-- A list or map that is still open; what it holds is in reverse order. -/
inductive Frame where
  | list (form : ListForm) (props : Properties) (items : List Tree)
  | map (form : MapForm) (props : Properties) (entries : List (Tree × Tree))
  /-- A map whose last entry has its key but not its value. -/
  | entry (form : MapForm) (props : Properties) (key : Tree) (entries : List (Tree × Tree))

/-- What precedes the content of an open list or map. -/
def Frame.props : Frame → Properties
  | list _ props _ | map _ props _ | entry _ props _ _ => props

/-- The tree of a list or map that ends here. -/
def Frame.close : Frame → Tree
  | list _ props items => .list props.tag items.reverse true
  | map _ props entries => .map props.tag entries.reverse true
  | entry _ props key entries => .map props.tag ((key, .broken) :: entries).reverse false

/-- The tree of a list or map that breaks off, in the middle of `inner` if that is given. -/
def Frame.cut (inner : Option Tree) : Frame → Tree
  | list _ props items => .list props.tag (inner.toList ++ items).reverse false
  | map _ props entries =>
    .map props.tag (inner.toList.map (fun t => (t, Tree.broken)) ++ entries).reverse false
  | entry _ props key entries =>
    .map props.tag ((key, inner.getD .broken) :: entries).reverse false

/-- An open list or map with one more value in it. -/
def Frame.add (t : Tree) : Frame → Frame
  | list form props items => .list form props (t :: items)
  | map form props entries => .entry form props t entries
  | entry form props key entries =>
    .map (if form = .lone then .flow else form) props ((key, t) :: entries)

/-! ## Assembling -/

/-- What tokens have been put together so far. -/
structure Assembly where
  stack : List Frame
  /-- What the handles of tags stand for. -/
  handles : List (String × String)
  /-- The number of each anchor name, latest first. -/
  anchors : List (String × Nat)
  /-- Which of the anchors of the text has a number, latest first. -/
  holders : List (Nat × Nat)
  /-- The values that anchors mark. -/
  marked : List (Nat × Tree)
  /-- How many values and ends of lists and maps were passed. -/
  size : Nat

namespace Assembly

/-- Nothing yet. -/
def start (handles : List (String × String)) : Assembly := ⟨[], handles, [], [], [], 0⟩

/-- The number of different anchor names. -/
def nameCount (a : Assembly) : Nat :=
  (a.anchors.map Prod.fst).eraseDups.length

/-- Sets an anchor.  Its number is how many different names were set before; an anchor of the same
number gives way to it. -/
def anchor (a : Assembly) (name : Option String) : Option Nat × Assembly :=
  match name with
  | none => (none, a)
  | some name =>
    let number := a.nameCount
    let serial := a.holders.length
    (some serial,
      { a with anchors := (name, number) :: a.anchors, holders := (number, serial) :: a.holders })

/-- Notes the value that an anchor marks. -/
def mark (a : Assembly) (serial : Option Nat) (t : Tree) : Assembly :=
  match serial with
  | some n => { a with marked := (n, t) :: a.marked }
  | none => a

/-- The value that each anchor number leads to. -/
def target? (a : Assembly) (number : Nat) : Option Tree := do
  let serial ← a.holders.lookup number
  a.marked.lookup serial

/-- Opens a list or map. -/
def opening (a : Assembly) (frame : Frame) : Assembly :=
  { a with stack := frame :: a.stack, size := a.size + 1 }

/-- Closes what is open around a value, none of it whole. -/
def cutAll (a : Assembly) : List Frame → Option Tree → Option Tree × Assembly
  | [], inner => (inner, a)
  | f :: outer, inner =>
    let t := f.cut inner
    (a.mark f.props.serial t).cutAll outer (some t)

end Assembly

/-- What must come next. -/
inductive Goal where
  /-- A value; whether block collections may begin, and whether items may stand under their key. -/
  | value (block flush : Bool)
  /-- Whatever the innermost open list or map goes on with. -/
  | next

/-- What tokens do to an assembly. -/
inductive Effect where
  | go (goal : Goal) (a : Assembly) (rest : List Token)
  /-- Completes a value. -/
  | complete (t : Tree) (a : Assembly) (rest : List Token)
  /-- Completes the innermost open list or map. -/
  | close (rest : List Token)
  /-- Does not fit. -/
  | stop

/-- The anchor and the tag at the front, in any order. -/
def takeProperties : List Token → (Option String × Option (String × String)) × List Token
  | .anchor name :: .tag handle suffix :: rest => ((some name, some (handle, suffix)), rest)
  | .tag handle suffix :: .anchor name :: rest => ((some name, some (handle, suffix)), rest)
  | .anchor name :: rest => ((some name, none), rest)
  | .tag handle suffix :: rest => ((none, some (handle, suffix)), rest)
  | rest => ((none, none), rest)

/-- The full form of a tag; nothing if its handle has no meaning. -/
def Assembly.expand? (a : Assembly) : String × String → Option String
  | (handle, suffix) =>
    if handle = "" then some suffix else (a.handles.lookup handle).map fun e => e ++ suffix

/-- A value whose properties have been read. -/
def beginContent (block flush : Bool) (name tag : Option String) (a : Assembly)
    (ts : List Token) : Effect :=
  let (serial, anchored) := a.anchor name
  let props : Properties := ⟨serial, tag⟩
  let scalar (tag : Option String) (text : String) (style : ScalarStyle) (rest : List Token) :=
    let t := Tree.scalar tag text style
    Effect.complete t (anchored.mark serial t) rest
  let opened (frame : Frame) (rest : List Token) := Effect.go .next (anchored.opening frame) rest
  match ts, block, flush with
  | .blockEntry :: _, _, true => opened (.list .flush props []) ts
  | .scalar text style :: rest, _, _ =>
    scalar (if tag = some "!" then none else tag) text style rest
  | .flowSequenceStart :: rest, _, _ => opened (.list .flow props []) rest
  | .flowMappingStart :: rest, _, _ => opened (.map .flow props []) rest
  | .blockSequenceStart :: rest, true, _ => opened (.list .block props []) rest
  | .blockMappingStart :: rest, true, _ => opened (.map .block props []) rest
  | t :: rest, _, _ =>
    if name.isNone && tag.isNone then .stop else scalar tag "" .plain (t :: rest)
  | [], _, _ => .stop

/-- A value. -/
def beginValue (block flush : Bool) (a : Assembly) : List Token → Effect
  | .alias name :: rest =>
    match a.anchors.lookup name with
    | some number => .complete (.alias number) a rest
    | none => .stop
  | ts =>
    match takeProperties ts with
    | ((name, none), rest) => beginContent block flush name none a rest
    | ((name, some tag), rest) =>
      match a.expand? tag with
      | some tag => beginContent block flush name (some tag) a rest
      | none => .stop

/-- A value that may be left out before certain tokens. -/
def valueUnless (absent : List Token) (block flush : Bool) (a : Assembly) : List Token → Effect
  | [] => .stop
  | t :: rest =>
    if absent.contains t then .complete .empty a (t :: rest)
    else .go (.value block flush) a (t :: rest)

/-- What a list goes on with. -/
def continueList (form : ListForm) (items : List Tree) (a : Assembly) (ts : List Token) : Effect :=
  match form, ts with
  | .block, .blockEntry :: rest => valueUnless [.blockEntry, .blockEnd] true false a rest
  | .block, .blockEnd :: rest => .close rest
  | .block, _ => .stop
  | .flush, .blockEntry :: rest =>
    valueUnless [.blockEntry, .key, .value, .blockEnd] true false a rest
  | .flush, [] => .stop
  | .flush, rest => .close rest
  | .flow, ts =>
    let item (rest : List Token) : Effect :=
      match rest with
      | [] => .stop
      | .flowSequenceEnd :: rest => .close rest
      | .key :: rest => .go .next (a.opening (.map .pair ⟨none, none⟩ [])) rest
      | rest => .go (.value false false) a rest
    match ts, items with
    | .flowSequenceEnd :: rest, _ => .close rest
    | ts, [] => item ts
    | .flowEntry :: rest, _ => item rest
    | _, _ => .stop

/-- What a map goes on with before a key. -/
def continueMap (form : MapForm) (props : Properties) (entries : List (Tree × Tree))
    (a : Assembly) (ts : List Token) : Effect :=
  match form, ts with
  | .block, .key :: rest => valueUnless [.key, .value, .blockEnd] true true a rest
  | .block, .blockEnd :: rest => .close rest
  | .block, _ => .stop
  | .pair, [] => .stop
  | .pair, t :: rest =>
    if !entries.isEmpty then .close (t :: rest)
    else if [Token.value, .flowEntry, .flowSequenceEnd].contains t then .complete .empty a rest
    else .go (.value false false) a (t :: rest)
  | .flow, ts | .lone, ts =>
    let key (rest : List Token) : Effect :=
      match rest with
      | [] => .stop
      | .flowMappingEnd :: rest => .close rest
      | .key :: rest => valueUnless [.value, .flowEntry, .flowMappingEnd] false false a rest
      | rest =>
        .go (.value false false) { a with stack := .map .lone props entries :: a.stack.drop 1 } rest
    match ts, entries with
    | .flowMappingEnd :: rest, _ => .close rest
    | ts, [] => key ts
    | .flowEntry :: rest, _ => key rest
    | _, _ => .stop

/-- What a map goes on with after a key. -/
def continueEntry (form : MapForm) (a : Assembly) (ts : List Token) : Effect :=
  match form, ts with
  | _, [] => .stop
  | .block, .value :: rest => valueUnless [.key, .value, .blockEnd] true true a rest
  | .pair, .value :: rest => valueUnless [.flowEntry, .flowSequenceEnd] false false a rest
  | .flow, .value :: rest => valueUnless [.flowEntry, .flowMappingEnd] false false a rest
  | _, ts => .complete .empty a ts

/-- What tokens do where something must come next. -/
def Goal.effect (goal : Goal) (a : Assembly) (ts : List Token) : Effect :=
  match goal, a.stack with
  | .value block flush, _ => beginValue block flush a ts
  | .next, .list form _ items :: _ => continueList form items a ts
  | .next, .map form props entries :: _ => continueMap form props entries a ts
  | .next, .entry form _ _ _ :: _ => continueEntry form a ts
  | .next, [] => .stop

/-- Puts tokens together; the answer is the root, if there is one, and the tokens after it, if they
were reached. -/
def assemble :
    (fuel : Nat) → Goal → Assembly → List Token → Option Tree × Assembly × Option (List Token)
  | 0, _, a, _ => (none, a, none)
  | fuel + 1, goal, a, ts =>
    let placed (t : Tree) (a : Assembly) (rest : List Token) :=
      let a := { a with size := a.size + 1 }
      match a.stack with
      | [] => (some t, a, some rest)
      | f :: outer => assemble fuel .next { a with stack := f.add t :: outer } rest
    match goal.effect a ts, a.stack with
    | .go goal a rest, _ => assemble fuel goal a rest
    | .complete t a rest, _ => placed t a rest
    | .close rest, f :: outer =>
      let t := f.close
      placed t ({ a with stack := outer }.mark f.props.serial t) rest
    | _, stack =>
      let (root, a) := a.cutAll stack none
      (root, a, none)

/-! ## Documents -/

/-- What the handles of tags stand for unless a directive says otherwise. -/
def defaultHandles : List (String × String) := [("!", "!"), ("!!", "tag:yaml.org,2002:")]

/-- The directives at the front: the handles that they set and what follows.  A version may be asked
for once, and only 1.1 and 1.2 are known; a handle may be set once. -/
def takeDirectives :
    (versioned : Bool) → (handles : List (String × String)) → List Token →
      Option (List (String × String) × List Token)
  | versioned, handles, .versionDirective major minor :: rest =>
    if versioned || major != 1 || minor != 1 && minor != 2 then none
    else takeDirectives true handles rest
  | versioned, handles, .tagDirective handle expansion :: rest =>
    if (handles.lookup handle).isSome then none
    else takeDirectives versioned ((handle, expansion) :: handles) rest
  | _, handles, rest => some (handles, rest)

/-- A text put together. -/
structure Parsed where
  root : Tree
  assembly : Assembly
  /-- Whether nothing follows the root. -/
  complete : Bool

/-- A text in which nothing can be read. -/
def Parsed.nothing (root : Tree) (complete : Bool) : Parsed := ⟨root, .start [], complete⟩

/-- Whether tokens hold no further document. -/
def isEnd (ts : List Token) : Bool :=
  (ts.dropWhile fun t => t == .documentEnd).head? == some .streamEnd

/-- The root value of a document. -/
def parseRoot (handles : List (String × String)) (ts : List Token) : Parsed :=
  match assemble (5 * ts.length + 10) (.value true false) (.start handles) ts with
  | (root, a, rest) => ⟨root.getD .broken, a, rest.any isEnd⟩

/-- Whether a token is no part of the document before it. -/
def Token.endsDocument : Token → Bool
  | versionDirective _ _ | tagDirective _ _ | documentStart | documentEnd | streamEnd => true
  | _ => false

/-- Puts the tokens of a text together.  A document without directives needs no mark at its start. -/
def parse (ts : List Token) : Parsed :=
  match ts with
  | .streamEnd :: _ => .nothing .absent true
  | .versionDirective _ _ :: _ | .tagDirective _ _ :: _ | .documentStart :: _ =>
    match takeDirectives false [] ts with
    | some (handles, .documentStart :: rest) =>
      match rest with
      | [] => .nothing .broken false
      | t :: _ =>
        if t.endsDocument then ⟨.empty, { Assembly.start [] with size := 1 }, isEnd rest⟩
        else parseRoot (handles ++ defaultHandles) rest
    | _ => .nothing .broken false
  | ts => parseRoot defaultHandles ts

end TreeSchema.Yaml
