/-
# TreeSchema.Session.Step — one operation of a session, and whole runs.

A step reads or changes the session and gives one answer.  A refused step changes nothing, except
that sealing and installing consume what the name is bound to, whether they succeed or not.  A
registry is worked on in place, so what a refused schema leaves of it is bound again.
-/
import TreeSchema.Registry.InPlace
import TreeSchema.Session.Edit

namespace TreeSchema

/-- How a named node comes about. -/
inductive Making where
  /-- A fresh node. -/
  | fresh (registry kind : String)
  /-- A node with positional and named values. -/
  | build (registry kind : String) (positional : List Term) (named : List (String × Term))
  /-- A fresh node of the installed registry. -/
  | installed (kind : String)
  /-- A node of the installed registry with positional values. -/
  | constructed (kind : String) (positional : List Term)
  | copy (name : String)

/-- One operation of a session. -/
inductive Step where
  /-- Binds a name to a registry without kinds. -/
  | start (registry : String)
  | register (registry : String) (schema : NodeSchema)
  | validate (registry : String)
  | sealing (registry : String)
  | install (registry : String)
  /-- Reads the installation. -/
  | installation
  /-- Reads a whole registry. -/
  | inspect (registry : String)
  | lookup (registry kind : String) (field : Option String)
  | isA (registry kind ancestor : String)
  | hierarchy (registry : String) (kinds : List String)
  | admits (registry : String) (types : List FieldType) (value : Term)
  | make (name : String) (making : Making)
  | sameRegistry (a b : String)
  | equal (a b : Term)
  | equalSlots (a b fieldA fieldB : String)
  | edit (name : String) (e : Edit)
  /-- An operation that could not be read. -/
  | unreadable

/-- What a step answers when it is not refused. -/
inductive Answer where
  | done
  | flag (b : Bool)
  | count (n : Nat)
  | kinds (names : List String)
  | installation (names : Option (List String))
  | registry (r : Registry)
  | lookup (r : Registry) (kind : String) (field : Option String)
  | matrix (rows : List (List Bool))
  | admission (each : List Bool)
  | node (n : Node)
  | reply (r : Reply)

/-- The outcome of a step, and what the answer shows beside it. -/
structure Outcome where
  result : Except Refusal Answer
  /-- The kinds of the registry that a refused schema did not enter. -/
  kinds : Option (List String)
  /-- The node after an edit. -/
  after : Option Node

namespace Outcome

/-- An outcome with nothing beside it. -/
def plain (result : Except Refusal Answer) : Outcome := ⟨result, none, none⟩

/-- The outcome of a step that cannot be carried out. -/
def unusable : Outcome := plain (.error .unusable)

end Outcome

namespace Session

/-- The node that a making describes. -/
def produce (s : Session) : Making → Except Refusal Node
  | .fresh registry kind =>
    match s.sealed registry with
    | .ok home => Refusal.lift (home.node kind)
    | .error e => .error e
  | .build registry kind positional named =>
    match (Term.make registry kind positional named).eval s with
    | .ok (.node n) => .ok n
    | .ok _ => .error .unusable
    | .error e => .error e
  | .installed kind => Refusal.lift (s.installation.node kind)
  | .constructed kind positional =>
    match Term.evalList s positional with
    | .ok values => Refusal.lift (s.installation.construct kind values)
    | .error e => .error e
  | .copy name => s.node name

/-- Registers a schema in place; a refusal shows the kinds that the registry is left with. -/
def register (s : Session) (name : String) (schema : NodeSchema) : Outcome × Session :=
  match s.growing name with
  | .error e => (.plain (.error e), s)
  | .ok r =>
    match Id.run ((Registry.InPlace.register schema).run r) with
    | (.ok (), r') => (.plain (.ok (.kinds r'.kinds)), s.bindRegistry name (.growing r'))
    | (.error e, r') =>
      (⟨.error (.tree e), some r'.kinds, none⟩, s.bindRegistry name (.growing r'))

/-- Binds a registry name to what sealing gave, or takes the name away. -/
def settle (s : Session) (name : String) : Except TreeError Sealed → Outcome × Session
  | .ok home =>
    (.plain (.ok (.count home.registry.size)),
      { s.bindRegistry name (.done home) with stamps := s.stamps + 1 })
  | .error e => (.plain (.error (.tree e)), s.dropRegistry name)

/-- Whether each type takes a value.  A registry that still grows has no nodes. -/
def admission (s : Session) (name : String) (types : List FieldType) (t : Term) :
    Except Refusal (List Bool) :=
  match s.holding? name with
  | none => .error .unusable
  | some h =>
    match t.eval s with
    | .error e => .error e
    | .ok v =>
      .ok (types.map fun ty =>
        match h with
        | .growing _ => ty.admitsScalar v
        | .done home => ty.admits home v)

/-- Whether two values are equal, formed from left to right. -/
def equal (s : Session) (a b : Term) : Except Refusal Bool :=
  match a.eval s with
  | .error e => .error e
  | .ok v =>
    match b.eval s with
    | .ok w => .ok (v.equals w)
    | .error e => .error e

/-- Whether fields of two nodes hold equal things. -/
def equalSlots (s : Session) (a b fieldA fieldB : String) : Except Refusal Bool :=
  match s.node a, s.node b with
  | .ok m, .ok n =>
    match m.get fieldA, n.get fieldB with
    | .ok x, .ok y => .ok (x.equals y)
    | .error e, _ => .error (.tree e)
    | _, .error e => .error (.tree e)
  | _, _ => .error .unusable

/-- Whether two nodes belong to one sealed registry. -/
def sameRegistry (s : Session) (a b : String) : Except Refusal Bool :=
  match s.node a, s.node b with
  | .ok m, .ok n => .ok (decide (m.home = n.home))
  | _, _ => .error .unusable

/-- The outcome of a step and the session after it. -/
def step (s : Session) : Step → Outcome × Session
  | .start name => (.plain (.ok .done), s.bindRegistry name (.growing .empty))
  | .register name schema => s.register name schema
  | .validate name =>
    match s.registry name with
    | .ok r => (.plain ((Refusal.lift r.validate).map fun _ => .done), s)
    | .error e => (.plain (.error e), s)
  | .sealing name =>
    match s.growing name with
    | .ok r => s.settle name (r.seal s.stamps)
    | .error e => (.plain (.error e), s.dropRegistry name)
  | .install name =>
    match s.growing name with
    | .error e => (.plain (.error e), s.dropRegistry name)
    | .ok r =>
      match s.installation.install r s.stamps with
      | .ok (home, i) => { s with installation := i }.settle name (.ok home)
      | .error e => s.settle name (.error e)
  | .installation =>
    (.plain (.ok (.installation (s.installation.registry?.map fun h => h.registry.kinds))), s)
  | .inspect name => (.plain ((s.registry name).map .registry), s)
  | .lookup name kind field => (.plain ((s.registry name).map fun r => .lookup r kind field), s)
  | .isA name kind ancestor =>
    (.plain ((s.registry name).map fun r => .flag (r.isA kind ancestor)), s)
  | .hierarchy name kinds =>
    (.plain ((s.registry name).map fun r =>
      .matrix (kinds.map fun k => kinds.map fun a => r.isA k a)), s)
  | .admits name types t => (.plain ((s.admission name types t).map .admission), s)
  | .make name making =>
    match s.produce making with
    | .ok n => (.plain (.ok (.node n)), s.bindNode name n)
    | .error e => (.plain (.error e), s)
  | .sameRegistry a b => (.plain ((s.sameRegistry a b).map .flag), s)
  | .equal a b => (.plain ((s.equal a b).map .flag), s)
  | .equalSlots a b fieldA fieldB => (.plain ((s.equalSlots a b fieldA fieldB).map .flag), s)
  | .edit name e =>
    match s.node? name with
    | none => (.unusable, s)
    | some n =>
      let (result, n') := e.apply s n
      (⟨result.map .reply, none, some n'⟩, s.bindNode name n')
  | .unreadable => (.unusable, s)

/-- The outcomes of steps in order, and the session after the last. -/
def run (s : Session) : List Step → List Outcome × Session
  | [] => ([], s)
  | x :: xs =>
    let first := s.step x
    let others := run first.2 xs
    (first.1 :: others.1, others.2)

/-- A session whose registry `name` is sealed with the given schemas. -/
def withSchemas (name : String) (schemas : List NodeSchema) : Except TreeError Session :=
  match Registry.empty.registerAll schemas with
  | .error e => .error e
  | .ok r =>
    match r.seal empty.stamps with
    | .error e => .error e
    | .ok home => .ok (empty.settle name (.ok home)).2

end Session

end TreeSchema
