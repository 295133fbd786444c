/-
# TreeSchema.Session — registries and nodes known by name.

A session holds registries under construction, sealed registries and nodes, each under a name, and
the installation that they share.  Names are bound anew by a later binding.
-/
import TreeSchema.Installation
import TreeSchema.Node.Completeness
import TreeSchema.Value.Inspect

namespace TreeSchema

/-- A registry under a name: still growing, or sealed. -/
inductive Holding where
  | growing (r : Registry)
  | done (home : Sealed)

/-- What is known by name at one moment of a run. -/
structure Session where
  registries : List (String × Option Holding)
  nodes : List (String × Node)
  installation : Installation
  /-- How many registries have been sealed; the next one takes this stamp. -/
  stamps : Nat

/-- Why an operation of a session gave nothing. -/
inductive Refusal where
  /-- A name is not bound, or not to what the operation needs. -/
  | unusable
  | tree (e : TreeError)

namespace Session

/-- Nothing known and nothing installed. -/
def empty : Session := ⟨[], [], .empty, 0⟩

instance : Inhabited Session := ⟨empty⟩

/-- What a registry name is bound to. -/
def holding? (s : Session) (name : String) : Option Holding :=
  (s.registries.lookup name).join

/-- Binds a registry name. -/
def bindRegistry (s : Session) (name : String) (h : Holding) : Session :=
  { s with registries := (name, some h) :: s.registries }

/-- Takes a registry name away. -/
def dropRegistry (s : Session) (name : String) : Session :=
  { s with registries := (name, none) :: s.registries }

/-- The node under a name. -/
def node? (s : Session) (name : String) : Option Node := s.nodes.lookup name

/-- Binds a node name. -/
def bindNode (s : Session) (name : String) (n : Node) : Session :=
  { s with nodes := (name, n) :: s.nodes }

/-- The sealed registry under a name. -/
def sealed (s : Session) (name : String) : Except Refusal Sealed :=
  match s.holding? name with
  | some (.done home) => .ok home
  | _ => .error .unusable

/-- The growing registry under a name. -/
def growing (s : Session) (name : String) : Except Refusal Registry :=
  match s.holding? name with
  | some (.growing r) => .ok r
  | _ => .error .unusable

/-- The schemas under a name, sealed or not. -/
def registry (s : Session) (name : String) : Except Refusal Registry :=
  match s.holding? name with
  | some (.growing r) => .ok r
  | some (.done home) => .ok home.registry
  | none => .error .unusable

/-- The node under a name, or the complaint that there is none. -/
def node (s : Session) (name : String) : Except Refusal Node :=
  match s.node? name with
  | some n => .ok n
  | none => .error .unusable

end Session

/-- An outcome on trees as an outcome of a session. -/
def Refusal.lift {α : Type} : Except TreeError α → Except Refusal α
  | .ok a => .ok a
  | .error e => .error (.tree e)

/-! ## Terms -/

/-- How a value is described in a session. -/
inductive Term where
  /-- The value itself. -/
  | value (v : Value)
  /-- The identifier with a text. -/
  | identifier (text : String)
  | seq (items : List Term)
  /-- A copy of the node under a name. -/
  | copy (name : String)
  /-- A new node. -/
  | make (registry kind : String) (positional : List Term) (named : List (String × Term))
  /-- A description that could not be read. -/
  | unreadable

instance : Inhabited Term := ⟨.unreadable⟩

mutual

/-- The value of a term.  In a new node the registry is looked up first, then the named values are
formed, then the positional ones; the first refusal ends it. -/
def Term.eval (s : Session) : Term → Except Refusal Value
  | .value v => .ok v
  | .identifier text =>
    match Identifier.ofText text with
    | .ok i => .ok (.identifier i)
    | .error e => .error (.tree (.wrongValue e))
  | .seq items =>
    match Term.evalList s items with
    | .ok vs => .ok (.seq vs)
    | .error e => .error e
  | .copy name =>
    match s.node name with
    | .ok n => .ok (.node n)
    | .error e => .error e
  | .make registry kind positional named =>
    match s.sealed registry with
    | .error e => .error e
    | .ok home =>
      match Term.evalNamed s named with
      | .error e => .error e
      | .ok fields =>
        match Term.evalList s positional with
        | .error e => .error e
        | .ok values =>
          match home.build kind values fields with
          | .ok n => .ok (.node n)
          | .error e => .error (.tree e)
  | .unreadable => .error .unusable

/-- The values of terms, from left to right. -/
def Term.evalList (s : Session) : List Term → Except Refusal (List Value)
  | [] => .ok []
  | t :: ts =>
    match Term.eval s t with
    | .error e => .error e
    | .ok v =>
      match Term.evalList s ts with
      | .ok vs => .ok (v :: vs)
      | .error e => .error e

/-- The values of named terms, from left to right. -/
def Term.evalNamed (s : Session) : List (String × Term) → Except Refusal (List (String × Value))
  | [] => .ok []
  | (name, t) :: ts =>
    match Term.eval s t with
    | .error e => .error e
    | .ok v =>
      match Term.evalNamed s ts with
      | .ok vs => .ok ((name, v) :: vs)
      | .error e => .error e

end

end TreeSchema
