/-
# TreeSchema.Proofs.Node.Parallel — two registries used in parallel.

A `Workbench` holds the nodes that a program has made of one registry, by name.  Its steps make a node, or
call an operation on a node that it holds.  Here two workbenches go through corresponding steps, one with
nodes of a registry and one with nodes of its counterpart, and nobody who watches the answers can tell them
apart: each step succeeds on both or fails on both with the same error, and what it answers and leaves
corresponds.

The edit of a child may be anything that treats corresponding children alike.  What edits answer with, and
when two of their answers count as corresponding, is left open.
-/
import TreeSchema.Proofs.List
import TreeSchema.Proofs.Node.Atomicity
import TreeSchema.Proofs.Node.Recast

namespace TreeSchema

/-! ## What corresponds -/

/-- Two values correspond: they are one value, but for the descriptions, once the registries of the first
are replaced by their counterparts. -/
def Value.Matches (κ : Sealed → Sealed) (v w : Value) : Prop := v.recast κ = w.recast id

/-- Two slots correspond. -/
def Slot.Matches (κ : Sealed → Sealed) (s t : Slot) : Prop := s.recast κ = t.recast id

/-- Two nodes correspond. -/
def Node.Matches (κ : Sealed → Sealed) (n m : Node) : Prop := n.recast κ = m.recast id

/-- Two writes correspond: they are one, but for the value, which corresponds. -/
inductive Write.Matches (κ : Sealed → Sealed) : Write → Write → Prop
  | set (field : String) {v w : Value} : v.Matches κ w → Matches κ (.set field v) (.set field w)
  | push (field : String) {v w : Value} : v.Matches κ w → Matches κ (.push field v) (.push field w)
  | clear (field : String) : Matches κ (.clear field) (.clear field)

/-- Two named values correspond: the name is the same. -/
def NamedMatches (κ : Sealed → Sealed) (p q : String × Value) : Prop :=
  p.1 = q.1 ∧ p.2.Matches κ q.2

/-- Two ways to make a node correspond: they are one, but for the values, which correspond. -/
inductive Creation.Matches (κ : Sealed → Sealed) : Creation → Creation → Prop
  | node (kind : String) : Matches κ (.node kind) (.node kind)
  | construct (kind : String) {vs ws : List Value} : List.Forall₂ (Value.Matches κ) vs ws →
      Matches κ (.construct kind vs) (.construct kind ws)
  | constructWith (kind : String) {vs ws : List (String × Value)} :
      List.Forall₂ (NamedMatches κ) vs ws →
        Matches κ (.constructWith kind vs) (.constructWith kind ws)
  | build (kind : String) {vs ws : List Value} {named named' : List (String × Value)} :
      List.Forall₂ (Value.Matches κ) vs ws → List.Forall₂ (NamedMatches κ) named named' →
        Matches κ (.build kind vs named) (.build kind ws named')

/-- Two edits correspond: of corresponding children they make corresponding ones, and answer with what
counts as corresponding. -/
def EditsMatch (κ : Sealed → Sealed) {α β : Type} (R : α → β → Prop) (edit : Node → α × Node)
    (edit' : Node → β × Node) : Prop :=
  ∀ n m, n.Matches κ m → R (edit n).1 (edit' m).1 ∧ (edit n).2.Matches κ (edit' m).2

section

variable {κ : Sealed → Sealed}

theorem Value.matches_node_iff {n m : Node} :
    (node n).Matches κ (node m) ↔ n.Matches κ m := by
  simp only [Matches, Node.Matches, recast, node.injEq]

/-- **Nodes correspond** if one belongs to the counterpart of the other's registry, and they follow
schemas that are the same when bare and hold what corresponds. -/
theorem Node.matches_iff {n m : Node} :
    n.Matches κ m ↔ κ n.home = m.home ∧ n.schema.bare = m.schema.bare ∧
      List.Forall₂ (Slot.Matches κ) n.slots m.slots := by
  obtain ⟨home, schema, slots⟩ := n
  obtain ⟨home', schema', slots'⟩ := m
  simp only [Matches, recast, Slot.recastAll_eq_map, Node.mk.injEq, List.map_eq_map_iff_forall₂]
  rfl

/-- Corresponding values have one text. -/
theorem Value.Matches.render_eq {v w : Value} (h : v.Matches κ w) : v.render = w.render := by
  rw [← render_recast (κ := κ) v, h, render_recast]

/-! ## Operations commute with recasting -/

variable {n m : Node}

/-- A field is found in the same place on both sides. -/
theorem Node.Matches.locate (hn : n.Matches κ m) (field : String) :
    SameAnswer (fun p q => barePlace p = barePlace q) (n.locate field) (m.locate field) := by
  refine .of_map_eq ?_
  rw [← locate_recast (κ := κ), hn, locate_recast]

theorem Node.Matches.slotAt (hn : n.Matches κ m) (i : Nat) :
    (n.slotAt i).Matches κ (m.slotAt i) := by
  rw [Slot.Matches, ← slotAt_recast, hn, slotAt_recast]

theorem Node.Matches.get (hn : n.Matches κ m) (field : String) :
    SameAnswer (Slot.Matches κ) (n.get field) (m.get field) := by
  refine .of_map_eq ?_
  rw [← get_recast, hn, get_recast]

theorem Node.Matches.putSlot (hn : n.Matches κ m) (i : Nat) {s t : Slot} (hs : s.Matches κ t) :
    (n.putSlot i s).Matches κ (m.putSlot i t) := by
  rw [Matches, recast_putSlot, hn, hs, recast_putSlot]

theorem Node.Matches.finalize (hn : n.Matches κ m) : n.finalize = m.finalize := by
  rw [← finalize_recast (κ := κ), hn, finalize_recast]

theorem Node.Matches.finalizeTree (hn : n.Matches κ m) : n.finalizeTree = m.finalizeTree := by
  rw [← finalizeTree_recast (κ := κ), hn, finalizeTree_recast]

/-- Of corresponding slots both hold a child, and these correspond, or neither does. -/
theorem Slot.Matches.child_or {s t : Slot} (hs : s.Matches κ t) :
    (∃ c c', s = .single (.node c) ∧ t = .single (.node c') ∧ c.Matches κ c') ∨
      (∀ c, s ≠ .single (.node c)) ∧ ∀ c, t ≠ .single (.node c) := by
  unfold Matches at hs
  cases s with
  | unset => cases t <;> simp [recast] at hs ⊢
  | many items => cases t <;> simp [recast] at hs ⊢
  | single v =>
      cases t with
      | unset => simp [recast] at hs
      | many items => simp [recast] at hs
      | single w =>
          have hv : v.recast κ = w.recast id := by simpa [recast] using hs
          cases v <;> cases w <;> simp [Value.recast] at hv ⊢
          exact hv

theorem Node.editChild_of_child {α : Type} {field : String} {f : FieldSpec} {i : Nat} {child : Node}
    (hl : n.locate field = .ok (f, i)) (hs : n.slotAt i = .single (.node child))
    (edit : Node → α × Node) :
    n.editChild field edit =
      if f.admits n.home (.node (edit child).2) then
        .ok (some (edit child).1, n.putSlot i (.single (.node (edit child).2)))
      else .error (n.refusal f (.node (edit child).2) (.notAdmitted f.typeNames)) := by
  simp only [editChild, hl, hs]

theorem Node.editChild_of_no_child {α : Type} {field : String} {f : FieldSpec} {i : Nat}
    (hl : n.locate field = .ok (f, i)) (hs : ∀ child, n.slotAt i ≠ .single (.node child))
    (edit : Node → α × Node) : n.editChild field edit = .ok (none, n) := by
  simp only [editChild, hl]

/-- A refusal names kind, field and text, which correspond. -/
theorem Node.Matches.refusal_eq (hn : n.Matches κ m) {f g : FieldSpec} (hfield : f.bare = g.bare)
    {v w : Value} (hv : v.Matches κ w) (reason : Mismatch) :
    n.refusal f v reason = m.refusal g w reason := by
  rw [← refusal_recast (κ := κ), hn, hfield, hv, refusal_recast]

section

variable (h : Counterparts κ)

include h

/-- **Writes of corresponding values to corresponding nodes** are accepted on both sides and leave
corresponding nodes, or are refused for one reason. -/
theorem Node.Matches.write (hn : n.Matches κ m) {w w' : Write} (hw : w.Matches κ w') :
    SameAnswer (Node.Matches κ) (w.run n) (w'.run m) := by
  refine .of_map_eq ?_
  cases hw with
  | set field hv =>
      rw [Write.run, Write.run, ← set_recast h, hn, hv, set_recast Counterparts.own]
  | push field hv =>
      rw [Write.run, Write.run, ← push_recast h, hn, hv, push_recast Counterparts.own]
  | clear field =>
      rw [Write.run, Write.run, ← clear_recast, hn, clear_recast]

/-- Fields that are the same when bare take corresponding values alike. -/
theorem FieldSpec.admits_of_matches {f g : FieldSpec} (hfield : f.bare = g.bare) {home home' : Sealed}
    (hhome : κ home = home') {v w : Value} (hv : v.Matches κ w) :
    f.admits home v = g.admits home' w := by
  rw [← h.admits home f v, hfield, hhome, hv]
  exact Counterparts.own.admits home' g w

/-- **Corresponding edits of the children of corresponding nodes** are made on both sides, or there is no
child on either, or they are refused for one reason. -/
theorem Node.Matches.editChild (hn : n.Matches κ m) (field : String) {α β : Type} {R : α → β → Prop}
    {edit : Node → α × Node} {edit' : Node → β × Node} (hedit : EditsMatch κ R edit edit') :
    SameAnswer (fun r r' => Option.Rel R r.1 r'.1 ∧ r.2.Matches κ r'.2)
      (n.editChild field edit) (m.editChild field edit') := by
  rcases (hn.locate field).cases_or with ⟨e, hl, hl'⟩ | ⟨⟨f, i⟩, ⟨g, j⟩, hl, hl', hplace⟩
  · simp only [Node.editChild, hl, hl']
    exact .error e
  · obtain ⟨hfield, rfl⟩ : f.bare = g.bare ∧ i = j := by simpa [barePlace] using hplace
    -- a child that the edit leaves is judged by fields that differ in their descriptions at most
    rcases (hn.slotAt i).child_or with ⟨child, child', hs, hs', hchild⟩ | ⟨hs, hs'⟩
    · obtain ⟨hanswer, hedited⟩ := hedit child child' hchild
      have hvalue := Value.matches_node_iff.2 hedited
      have hslot : (Slot.single (.node (edit child).2)).Matches κ (.single (.node (edit' child').2)) :=
        congrArg Slot.single hvalue
      rw [editChild_of_child hl hs, editChild_of_child hl' hs',
        FieldSpec.admits_of_matches h hfield (Node.matches_iff.1 hn).1 hvalue]
      split
      · exact .ok ⟨.some hanswer, hn.putSlot i hslot⟩
      · have hnames : f.typeNames = g.typeNames := by
          rw [← FieldSpec.typeNames_bare, hfield, FieldSpec.typeNames_bare]
        rw [hnames, hn.refusal_eq hfield hvalue]
        exact .error _
    · rw [editChild_of_no_child hl hs, editChild_of_no_child hl' hs']
      exact .ok ⟨.none, hn⟩

/-! ## Making nodes -/

/-- A registry makes nodes as its counterpart does. -/
theorem Counterparts.node (home : Sealed) (kind : String) :
    SameAnswer (Node.Matches κ) (home.node kind) ((κ home).node kind) := by
  have hschema : SameAnswer (fun s s' => NodeSchema.bare s = NodeSchema.bare s')
      (home.registry.schema kind) ((κ home).registry.schema kind) := by
    refine .of_map_eq ?_
    rw [← Registry.schema_bare, ← Registry.schema_bare, h.bare]
  rcases hschema.cases_or with ⟨e, hs, hs'⟩ | ⟨s, s', hs, hs', hbare⟩
  · rw [Sealed.node, Sealed.node, hs, hs']
    exact .error e
  · rw [Sealed.node, Sealed.node, hs, hs']
    refine .ok ?_
    rw [Node.Matches, Node.recast_fresh, Node.recast_fresh, hbare]
    rfl

/-- Values given by place and by name are taken on both sides, or one of them is refused on both. -/
theorem Counterparts.build (home : Sealed) (kind : String) {vs ws : List Value}
    (hvs : List.Forall₂ (Value.Matches κ) vs ws) {named named' : List (String × Value)}
    (hnamed : List.Forall₂ (NamedMatches κ) named named') :
    SameAnswer (Node.Matches κ) (home.build kind vs named) ((κ home).build kind ws named') := by
  -- the two fresh nodes correspond, and from there on both sides fill in the same fields
  rcases (h.node home kind).cases_or with ⟨e, hn, hm⟩ | ⟨n, m, hn, hm, hmatch⟩
  · rw [Sealed.build, Sealed.build, hn, hm]
    exact .error e
  · have hfields : n.schema.fields.map FieldSpec.bare = m.schema.fields.map FieldSpec.bare :=
      NodeSchema.map_bare_fields (Node.matches_iff.1 hmatch).2.1
    have hlength : n.schema.fields.length = m.schema.fields.length := by
      simpa using congrArg List.length hfields
    have hvalues : vs.map (Value.recast κ) = ws.map (Value.recast id) :=
      List.map_eq_map_iff_forall₂.2 hvs
    have hnames : named.map (fun p => (p.1, p.2.recast κ))
        = named'.map fun p => (p.1, p.2.recast id) :=
      List.map_eq_map_iff_forall₂.2 (hnamed.imp fun _ _ hp => Prod.ext hp.1 hp.2)
    have hplaces : n.schema.fields.zipIdx.map barePlace = m.schema.fields.zipIdx.map barePlace := by
      have hzip : ∀ fs : List FieldSpec,
          fs.zipIdx.map barePlace = (fs.map FieldSpec.bare).zipIdx := fun fs => List.zipIdx_map.symm
      rw [hzip, hzip, hfields]
    have hfilled : SameAnswer (Node.Matches κ) (n.fillPositional n.schema.fields.zipIdx vs)
        (m.fillPositional m.schema.fields.zipIdx ws) := by
      refine .of_map_eq ?_
      rw [← Node.fillPositional_recast h, hmatch, hplaces, hvalues,
        Node.fillPositional_recast Counterparts.own]
    simp only [Sealed.build, hn, hm, hlength, hvs.length_eq]
    split
    · exact .error _
    · rcases hfilled.cases_or with ⟨e, hf, hf'⟩ | ⟨k, k', hf, hf', hk⟩
      · simp only [hf, hf']
        exact .error e
      · simp only [hf, hf']
        refine .of_map_eq ?_
        rw [← Node.fillNamed_recast h, hk, hnames, Node.fillNamed_recast Counterparts.own]

/-- **Corresponding creations** make corresponding nodes, or fail with one error. -/
theorem Counterparts.create (home : Sealed) {c c' : Creation} (hc : c.Matches κ c') :
    SameAnswer (Node.Matches κ) (c.run home) (c'.run (κ home)) := by
  cases hc with
  | node kind => exact h.node home kind
  | construct kind hvs => exact h.build home kind hvs .nil
  | constructWith kind hnamed => exact h.build home kind .nil hnamed
  | build kind hvs hnamed => exact h.build home kind hvs hnamed

end

end

/-! ## Operations and steps -/

/-- An operation on a node.  All edits of a program answer with things of one type. -/
inductive Operation (α : Type) where
  | get (field : String)
  | write (w : Write)
  | edit (field : String) (edit : Node → α × Node)
  | finalize
  | finalizeTree

/-- What an operation answers. -/
inductive Report (α : Type) where
  | slot (answer : Except TreeError Slot)
  | done (answer : Except TreeError Unit)
  | edited (answer : Except TreeError (Option α))

/-- Calls an operation on a node in place: what it answers, and the node that it leaves. -/
def Operation.run {α : Type} : Operation α → Node → Report α × Node
  | get field, n => (.slot (n.get field), n)
  | write w, n =>
    let left := Id.run (w.inPlace.run.run n)
    (.done left.1, left.2)
  | edit field change, n =>
    let left := Id.run ((InPlace.editChild field change : InPlace Id (Option α)).run.run n)
    (.edited left.1, left.2)
  | finalize, n => (.done n.finalize, n)
  | finalizeTree, n => (.done n.finalizeTree, n)

/-- Calls operations on a node in order. -/
def Operation.runAll {α : Type} : List (Operation α) → Node → List (Report α) × Node
  | [], n => ([], n)
  | op :: ops, n =>
    let (report, n) := op.run n
    let (reports, n) := runAll ops n
    (report :: reports, n)

/-- The nodes that a program has made, by name. -/
abbrev Workbench := String → Option Node

namespace Workbench

/-- A step of a program that makes nodes of one registry. -/
inductive Step (α : Type) where
  /-- Makes a node and gives it a name. -/
  | make (x : String) (c : Creation)
  /-- Calls an operation on the node with a name. -/
  | call (x : String) (op : Operation α)

/-- What a step is answered. -/
inductive Answer (α : Type) where
  | made (answer : Except TreeError Node)
  | told (report : Report α)
  /-- No node has the name. -/
  | absent

/-- No node has been made yet. -/
def empty : Workbench := fun _ => none

variable {α : Type}

/-- Makes one step: its answer, and the nodes afterwards. -/
def step (home : Sealed) (b : Workbench) : Step α → Answer α × Workbench
  | .make x c =>
    match c.run home with
    | .ok n => (.made (.ok n), Function.update b x (some n))
    | .error e => (.made (.error e), b)
  | .call x op =>
    match b x with
    | some n => (.told (op.run n).1, Function.update b x (some (op.run n).2))
    | none => (.absent, b)

/-- Makes steps in order. -/
def run (home : Sealed) (b : Workbench) : List (Step α) → List (Answer α) × Workbench
  | [] => ([], b)
  | s :: steps =>
    let (answer, b) := b.step home s
    let (answers, b) := run home b steps
    (answer :: answers, b)

end Workbench

section

variable {κ : Sealed → Sealed} {α β : Type} {R : α → β → Prop}

/-- Two operations correspond: they are one, but for the value that is written and for the edit. -/
inductive Operation.Matches (κ : Sealed → Sealed) {α β : Type} (R : α → β → Prop) :
    Operation α → Operation β → Prop
  | get (field : String) : Matches κ R (.get field) (.get field)
  | write {w w' : Write} : w.Matches κ w' → Matches κ R (.write w) (.write w')
  | edit (field : String) {change : Node → α × Node} {change' : Node → β × Node} :
      EditsMatch κ R change change' → Matches κ R (.edit field change) (.edit field change')
  | finalize : Matches κ R .finalize .finalize
  | finalizeTree : Matches κ R .finalizeTree .finalizeTree

/-- Two reports correspond: they tell of corresponding results or of one error. -/
inductive Report.Matches (κ : Sealed → Sealed) {α β : Type} (R : α → β → Prop) :
    Report α → Report β → Prop
  | slot {a b : Except TreeError Slot} : SameAnswer (Slot.Matches κ) a b →
      Matches κ R (.slot a) (.slot b)
  | done (a : Except TreeError Unit) : Matches κ R (.done a) (.done a)
  | edited {a : Except TreeError (Option α)} {b : Except TreeError (Option β)} :
      SameAnswer (Option.Rel R) a b → Matches κ R (.edited a) (.edited b)

variable (h : Counterparts κ) {n m : Node}

include h

/-- **One operation on corresponding nodes**: the reports correspond, and so do the nodes that are left. -/
theorem Operation.Matches.run {op : Operation α} {op' : Operation β} (hop : op.Matches κ R op')
    (hn : n.Matches κ m) :
    (op.run n).1.Matches κ R (op'.run m).1 ∧ (op.run n).2.Matches κ (op'.run m).2 := by
  cases hop with
  | get field => exact ⟨.slot (hn.get field), hn⟩
  | @write w w' hw =>
      simp only [Operation.run, Write.run_inPlace, Write.after]
      rcases (hn.write h hw).cases_or with ⟨e, hr, hr'⟩ | ⟨k, k', hr, hr', hk⟩
      · rw [hr, hr']
        exact ⟨.done _, hn⟩
      · rw [hr, hr']
        exact ⟨.done _, hk⟩
  | @edit field change change' hedit =>
      simp only [Operation.run, InPlace.run_editChild_eq, Node.afterEdit]
      rcases (hn.editChild h field hedit).cases_or with ⟨e, hr, hr'⟩ | ⟨k, k', hr, hr', hanswer, hk⟩
      · rw [hr, hr']
        exact ⟨.edited (.error e), hn⟩
      · rw [hr, hr']
        exact ⟨.edited (.ok hanswer), hk⟩
  | finalize =>
      simp only [Operation.run, hn.finalize]
      exact ⟨.done _, hn⟩
  | finalizeTree =>
      simp only [Operation.run, hn.finalizeTree]
      exact ⟨.done _, hn⟩

/-- A run of operations on a child is an edit of it: corresponding runs are corresponding edits. -/
theorem Operation.editsMatch_runAll {ops : List (Operation α)} {ops' : List (Operation β)}
    (hops : List.Forall₂ (Operation.Matches κ R) ops ops') :
    EditsMatch κ (List.Forall₂ (Report.Matches κ R)) (Operation.runAll ops)
      (Operation.runAll ops') := by
  intro n m hn
  induction hops generalizing n m with
  | nil => exact ⟨.nil, hn⟩
  | cons hop _ ih =>
      obtain ⟨hreport, hleft⟩ := hop.run h hn
      obtain ⟨hreports, hlast⟩ := ih _ _ hleft
      exact ⟨.cons hreport hreports, hlast⟩

end

/-! ## Runs in parallel -/

namespace Workbench

variable {κ : Sealed → Sealed} {α β : Type} {R : α → β → Prop}

/-- Two steps correspond: they name one node, and make it or operate on it with corresponding values. -/
inductive Step.Matches (κ : Sealed → Sealed) {α β : Type} (R : α → β → Prop) :
    Step α → Step β → Prop
  | make (x : String) {c c' : Creation} : c.Matches κ c' → Matches κ R (.make x c) (.make x c')
  | call (x : String) {op : Operation α} {op' : Operation β} : op.Matches κ R op' →
      Matches κ R (.call x op) (.call x op')

/-- Two answers correspond. -/
inductive Answer.Matches (κ : Sealed → Sealed) {α β : Type} (R : α → β → Prop) :
    Answer α → Answer β → Prop
  | made {a b : Except TreeError Node} : SameAnswer (Node.Matches κ) a b →
      Matches κ R (.made a) (.made b)
  | told {r : Report α} {r' : Report β} : r.Matches κ R r' → Matches κ R (.told r) (.told r')
  | absent : Matches κ R .absent .absent

/-- Two workbenches correspond: they hold corresponding nodes under the same names. -/
def Matches (κ : Sealed → Sealed) (b b' : Workbench) : Prop :=
  ∀ x, Option.Rel (Node.Matches κ) (b x) (b' x)

theorem matches_empty : empty.Matches κ empty := fun _ => .none

/-- A name may be given corresponding nodes. -/
theorem Matches.update {b b' : Workbench} (hb : b.Matches κ b') (x : String) {n m : Node}
    (hn : n.Matches κ m) :
    Matches κ (Function.update b x (some n)) (Function.update b' x (some m)) := by
  intro y
  by_cases hy : y = x
  · subst hy
    simpa using Option.Rel.some hn
  · simpa [Function.update_of_ne hy] using hb y

variable (h : Counterparts κ) (home : Sealed) {b b' : Workbench}

include h

/-- **One step on corresponding workbenches**: the answers correspond, and so do the workbenches
afterwards. -/
theorem Step.Matches.step {s : Step α} {s' : Step β} (hs : s.Matches κ R s') (hb : b.Matches κ b') :
    (b.step home s).1.Matches κ R (b'.step (κ home) s').1 ∧
      (b.step home s).2.Matches κ (b'.step (κ home) s').2 := by
  cases hs with
  | @make x c c' hc =>
      rcases (h.create home hc).cases_or with ⟨e, hr, hr'⟩ | ⟨n, m, hr, hr', hn⟩
      · simp only [Workbench.step, hr, hr']
        exact ⟨.made (.error e), hb⟩
      · simp only [Workbench.step, hr, hr']
        exact ⟨.made (.ok hn), hb.update x hn⟩
  | @call x op op' hop =>
      have hx := hb x
      generalize hbx : b x = o at hx
      generalize hbx' : b' x = o' at hx
      simp only [Workbench.step, hbx, hbx']
      cases hx with
      | none => exact ⟨.absent, hb⟩
      | some hn =>
          obtain ⟨hreport, hleft⟩ := hop.run h hn
          exact ⟨.told hreport, hb.update x hleft⟩

/-- A whole run in parallel: every answer corresponds, and so do the nodes in the end. -/
theorem run_matches {steps : List (Step α)} {steps' : List (Step β)}
    (hsteps : List.Forall₂ (Step.Matches κ R) steps steps') (hb : b.Matches κ b') :
    List.Forall₂ (Answer.Matches κ R) (b.run home steps).1 (b'.run (κ home) steps').1 ∧
      (b.run home steps).2.Matches κ (b'.run (κ home) steps').2 := by
  induction hsteps generalizing b b' with
  | nil => exact ⟨.nil, hb⟩
  | cons hs _ ih =>
      obtain ⟨hanswer, hafter⟩ := hs.step h home hb
      obtain ⟨hanswers, hlast⟩ := ih hafter
      exact ⟨.cons hanswer hanswers, hlast⟩

end Workbench

end TreeSchema
