/-
# TreeSchema.Proofs.Scene — runs of a program that builds trees, and what every run keeps.

A `Scene` is what a program holds at one moment: the registries it has sealed, its nodes by name, and
the parents whose children it is in the middle of editing.  A `Step` is one call: sealing or
installing a registry, making a node, copying one, writing to one, beginning the edit of a child and
ending it.

An edit is arbitrary code.  So an edit is not a single step: beginning it puts the child under a name
of its own and takes the parent away, then any steps may follow, other edits included, and ending it
calls `Node.editChild` with whatever function leaves the child that these steps have made.  Values
given to a call may be built freely from scalars, sequences and nodes that the program can see, of
whatever registry.

The main result is that every node a run can show is sound, and so is every node inside it.
-/
import TreeSchema.Installation
import TreeSchema.Proofs.Node.Soundness
import Mathlib.Logic.Relation

namespace TreeSchema

/-! ## Calls -/

/-- A way to make a node of a registry. -/
inductive Creation where
  | node (kind : String)
  | construct (kind : String) (values : List Value)
  | constructWith (kind : String) (values : List (String × Value))
  | build (kind : String) (positional : List Value) (named : List (String × Value))

/-- The node that a creation makes. -/
def Creation.run (home : Sealed) : Creation → Except TreeError Node
  | node kind => home.node kind
  | construct kind values => home.construct kind values
  | constructWith kind values => home.constructWith kind values
  | build kind positional named => home.build kind positional named

/-- The values that a creation is given. -/
def Creation.values : Creation → List Value
  | node _ => []
  | construct _ values => values
  | constructWith _ values => values.map Prod.snd
  | build _ positional named => positional ++ named.map Prod.snd

/-- A write to one field of a node. -/
inductive Write where
  | set (field : String) (value : Value)
  | push (field : String) (value : Value)
  | clear (field : String)

/-- The node that a write makes of a node. -/
def Write.run : Write → Node → Except TreeError Node
  | set field v, n => n.set field v
  | push field v, n => n.push field v
  | clear field, n => n.clear field

/-- The values that a write is given. -/
def Write.values : Write → List Value
  | set _ v => [v]
  | push _ v => [v]
  | clear _ => []

/-- The node after a write, refused or not. -/
def Write.after (w : Write) (n : Node) : Node :=
  match w.run n with
  | .ok n' => n'
  | .error _ => n

/-- The node after the edit of a child, refused or not. -/
def Node.afterEdit {α : Type} (n : Node) (field : String) (edit : Node → α × Node) : Node :=
  match n.editChild field edit with
  | .ok (_, n') => n'
  | .error _ => n

namespace Node.DeeplySound

variable {n : Node}

theorem after (h : n.DeeplySound) {w : Write} (hv : ∀ v ∈ w.values, v.Sound) :
    (w.after n).DeeplySound := by
  unfold Write.after
  cases hr : w.run n with
  | error e => exact h
  | ok n' =>
      cases w with
      | set field v => exact h.set (hv v (by simp [Write.values])) hr
      | push field v => exact h.push (hv v (by simp [Write.values])) hr
      | clear field => exact h.clear hr

theorem afterEdit (h : n.DeeplySound) {α : Type} {field : String} {edit : Node → α × Node}
    (hedit : ∀ child, n.get field = .ok (.single (.node child)) → (edit child).2.DeeplySound) :
    (n.afterEdit field edit).DeeplySound := by
  unfold Node.afterEdit
  cases he : n.editChild field edit with
  | error e => exact h
  | ok r => exact h.editChild hedit he

end Node.DeeplySound

theorem Creation.deeplySound {home : Sealed} (hc : home.registry.Coherent) {c : Creation} {n : Node}
    (hv : ∀ v ∈ c.values, v.Sound) (h : c.run home = .ok n) : n.DeeplySound := by
  cases c with
  | node kind => exact Sealed.deeplySound_of_node hc h
  | construct kind values => exact Sealed.deeplySound_of_build hc hv (by simp) h
  | constructWith kind values =>
      refine Sealed.deeplySound_of_build hc (by simp) ?_ h
      exact fun p hp => hv p.2 (List.mem_map.2 ⟨p, hp, rfl⟩)
  | build kind positional named =>
      refine Sealed.deeplySound_of_build hc (fun v hp => hv v ?_) (fun p hp => hv p.2 ?_) h
      · exact List.mem_append_left _ hp
      · exact List.mem_append_right _ (List.mem_map.2 ⟨p, hp, rfl⟩)

/-! ## Scenes and steps -/

/-- An edit of a child that has begun and not ended. -/
structure Frame where
  /-- The name that holds the parent before and after the edit. -/
  name : String
  parent : Node
  field : String
  /-- The name under which the edit works on the child. -/
  childName : String
  /-- The child before the edit. -/
  child : Node

/-- What a program holds at one moment of a run. -/
structure Scene where
  installation : Installation
  /-- All registries sealed so far, installed or not, newest first. -/
  homes : List Sealed
  nodes : String → Option Node
  /-- The edits under way, innermost first. -/
  frames : List Frame

namespace Scene

/-- Nothing installed, sealed or made. -/
def start : Scene := ⟨.empty, [], fun _ => none, []⟩

/-- A node can be seen: a name holds it, or it lies inside a node that a name holds. -/
def Shows (s : Scene) (m : Node) : Prop :=
  ∃ x n, s.nodes x = some n ∧ (m = n ∨ n.Contains m)

/-- A value can be formed: all nodes in it can be seen. -/
def Supplies (s : Scene) (v : Value) : Prop :=
  ∀ m, v.Reaches m → s.Shows m

theorem Shows.of_name {s : Scene} (x : String) {n : Node} (h : s.nodes x = some n) : s.Shows n :=
  ⟨x, n, h, Or.inl rfl⟩

/-- What lies in a node that can be seen can be seen. -/
theorem Shows.of_reaches {s : Scene} {n m : Node} (h : s.Shows n)
    (hm : (Value.node n).Reaches m) : s.Shows m := by
  rcases Value.reaches_node_iff.1 hm with rfl | hm
  · exact h
  · obtain ⟨x, k, hx, rfl | hk⟩ := h
    · exact ⟨x, n, hx, Or.inr hm⟩
    · exact ⟨x, k, hx, Or.inr (hk.trans hm)⟩

theorem supplies_node {s : Scene} {n : Node} (h : s.Shows n) : s.Supplies (.node n) :=
  fun _ hm => h.of_reaches hm

theorem supplies_seq {s : Scene} {items : List Value} (h : ∀ v ∈ items, s.Supplies v) :
    s.Supplies (.seq items) := by
  intro m hm
  cases hm with
  | element hv hm => exact h _ hv m hm

theorem supplies_text (s : Scene) (t : String) : s.Supplies (.text t) := by
  intro m hm
  cases hm

/-- Lets a name hold a node. -/
def put (s : Scene) (x : String) (n : Node) : Scene :=
  { s with nodes := Function.update s.nodes x (some n) }

/-- Begins an edit: the parent is out of sight, the child has a name. -/
def enter (s : Scene) (f : Frame) : Scene :=
  { s with
    nodes := Function.update (Function.update s.nodes f.name none) f.childName (some f.child)
    frames := f :: s.frames }

/-- Ends an edit: the child's name is gone, and the parent is back as the edit leaves it. -/
def leave (s : Scene) (f : Frame) (rest : List Frame) (n : Node) : Scene :=
  { s with
    nodes := Function.update (Function.update s.nodes f.childName none) f.name (some n)
    frames := rest }

/-- One call, or the beginning or end of one that edits a child. -/
inductive Step : Scene → Scene → Prop
  | sealing {s : Scene} {r : Registry} {home : Sealed} :
      r.Grown → r.seal s.homes.length = .ok home → Step s { s with homes := home :: s.homes }
  | install {s : Scene} {r : Registry} {home : Sealed} {i : Installation} :
      r.Grown → s.installation.install r s.homes.length = .ok (home, i) →
        Step s { s with installation := i, homes := home :: s.homes }
  | create {s : Scene} (x : String) {home : Sealed} {c : Creation} {n : Node} :
      home ∈ s.homes → (∀ v ∈ c.values, s.Supplies v) → c.run home = .ok n → Step s (s.put x n)
  /-- A copy of a node; under a name that holds another node, it takes that node's place. -/
  | copy {s : Scene} (x : String) {m : Node} :
      s.Shows m → Step s (s.put x m)
  | write {s : Scene} {x : String} {n : Node} {w : Write} :
      s.nodes x = some n → (∀ v ∈ w.values, s.Supplies v) → Step s (s.put x (w.after n))
  | enter {s : Scene} {f : Frame} :
      s.nodes f.name = some f.parent → f.parent.get f.field = .ok (.single (.node f.child)) →
        s.nodes f.childName = none → Step s (s.enter f)
  /-- The edit is any function that leaves the child as it now is. -/
  | leave {s : Scene} {f : Frame} {rest : List Frame} {α : Type} {edit : Node → α × Node} :
      s.frames = f :: rest → s.nodes f.childName = some (edit f.child).2 →
        Step s (s.leave f rest (f.parent.afterEdit f.field edit))

/-- A scene that a run of any length leads to. -/
def Reached (s : Scene) : Prop := Relation.ReflTransGen Step start s

/-! ## What every step keeps -/

/-- All registries were grown by registering, and every node the scene holds is deeply sound, the
parents of unfinished edits included. -/
structure Sound (s : Scene) : Prop where
  homes : ∀ home ∈ s.homes, home.registry.Grown
  nodes : ∀ x n, s.nodes x = some n → n.DeeplySound
  parents : ∀ f ∈ s.frames, f.parent.DeeplySound
  children : ∀ f ∈ s.frames, f.parent.get f.field = .ok (.single (.node f.child))

/-- What holds of all bound nodes goes on holding of them when a name is bound to nothing or to a node
of which it holds. -/
theorem forall_update {P : Node → Prop} {nodes : String → Option Node}
    (h : ∀ x n, nodes x = some n → P n) (x : String) {o : Option Node}
    (ho : ∀ n, o = some n → P n) :
    ∀ y n, Function.update nodes x o y = some n → P n := by
  intro y n hy
  rw [Function.update_apply] at hy
  split at hy
  · exact ho n hy
  · exact h y n hy

namespace Sound

variable {s : Scene}

theorem shows (h : s.Sound) {m : Node} (hm : s.Shows m) : m.DeeplySound := by
  obtain ⟨x, n, hx, rfl | hc⟩ := hm
  · exact h.nodes x m hx
  · exact (h.nodes x n hx).of_contains hc

theorem supplies (h : s.Sound) {v : Value} (hv : s.Supplies v) : v.Sound :=
  fun m hm => (h.shows (hv m hm)).sound

/-- A name may be given a deeply sound node. -/
theorem put (h : s.Sound) (x : String) {n : Node} (hn : n.DeeplySound) : (s.put x n).Sound := by
  refine ⟨h.homes, ?_, h.parents, h.children⟩
  exact forall_update h.nodes x fun m hm => Option.some.inj hm ▸ hn

/-- An edit may begin on the child that a field of a held node holds. -/
theorem enter (h : s.Sound) {f : Frame} (hx : s.nodes f.name = some f.parent)
    (hget : f.parent.get f.field = .ok (.single (.node f.child))) : (s.enter f).Sound := by
  have hparent : f.parent.DeeplySound := h.nodes _ _ hx
  have hchild : f.child.DeeplySound := hparent.of_get hget _ (by simp [Slot.values])
  refine ⟨h.homes, ?_, List.forall_mem_cons.2 ⟨hparent, h.parents⟩,
    List.forall_mem_cons.2 ⟨hget, h.children⟩⟩
  refine forall_update (forall_update h.nodes f.name (by simp)) f.childName ?_
  exact fun m hm => Option.some.inj hm ▸ hchild

/-- An edit may end with any function that leaves the child as the scene holds it. -/
theorem leave (h : s.Sound) {f : Frame} {rest : List Frame} {α : Type} {edit : Node → α × Node}
    (hframes : s.frames = f :: rest) (hchild : s.nodes f.childName = some (edit f.child).2) :
    (s.leave f rest (f.parent.afterEdit f.field edit)).Sound := by
  have hparents := h.parents
  have hchildren := h.children
  rw [hframes, List.forall_mem_cons] at hparents hchildren
  have hparent : (f.parent.afterEdit f.field edit).DeeplySound := by
    -- nothing is known of the edit but what it makes of the child that the frame records
    refine hparents.1.afterEdit ?_
    intro child hget
    rw [hchildren.1] at hget
    obtain rfl : f.child = child := by simpa using hget
    exact h.nodes _ _ hchild
  refine ⟨h.homes, ?_, hparents.2, hchildren.2⟩
  refine forall_update (forall_update h.nodes f.childName (by simp)) f.name ?_
  exact fun m hm => Option.some.inj hm ▸ hparent

end Sound

theorem sound_start : start.Sound := by
  refine ⟨?_, ?_, ?_, ?_⟩ <;> simp [start]

/-- Sealing changes nothing in a registry. -/
theorem registry_of_seal {r : Registry} {stamp : Nat} {home : Sealed}
    (h : r.seal stamp = .ok home) : home.registry = r := by
  unfold Registry.seal at h
  split at h
  · obtain rfl := Except.ok.inj h
    rfl
  · simp at h

theorem registry_of_install {i i' : Installation} {r : Registry} {stamp : Nat} {home : Sealed}
    (h : i.install r stamp = .ok (home, i')) : home.registry = r := by
  unfold Installation.install at h
  cases hs : r.seal stamp with
  | error e => simp [hs] at h
  | ok home₁ =>
      cases hi : i.registry? with
      | some home₂ => simp [hs, hi] at h
      | none =>
          simp only [hs, hi, Except.ok.injEq, Prod.mk.injEq] at h
          obtain ⟨rfl, -⟩ := h
          exact registry_of_seal hs

/-- **One step keeps soundness.** -/
theorem Step.sound {s s' : Scene} (h : Step s s') (hs : s.Sound) : s'.Sound := by
  cases h with
  | sealing hr hseal =>
      refine ⟨?_, hs.nodes, hs.parents, hs.children⟩
      rw [← registry_of_seal hseal] at hr
      exact List.forall_mem_cons.2 ⟨hr, hs.homes⟩
  | install hr hinstall =>
      refine ⟨?_, hs.nodes, hs.parents, hs.children⟩
      rw [← registry_of_install hinstall] at hr
      exact List.forall_mem_cons.2 ⟨hr, hs.homes⟩
  | create x hhome hv hrun =>
      exact hs.put x (Creation.deeplySound (hs.homes _ hhome).coherent
        (fun v hmem => hs.supplies (hv v hmem)) hrun)
  | copy x hm => exact hs.put x (hs.shows hm)
  | write hx hv =>
      exact hs.put _ ((hs.nodes _ _ hx).after fun v hmem => hs.supplies (hv v hmem))
  | enter hx hget _ => exact hs.enter hx hget
  | leave hframes hchild => exact hs.leave hframes hchild

/-- A whole run keeps soundness. -/
theorem Reached.sound {s : Scene} (h : s.Reached) : s.Sound := by
  induction h with
  | refl => exact sound_start
  | tail _ hstep ih => exact hstep.sound ih

end Scene

/-- A node that some run can show. -/
def Node.Reachable (n : Node) : Prop := ∃ s : Scene, s.Reached ∧ s.Shows n

theorem Node.Reachable.deeplySound {n : Node} (h : n.Reachable) : n.DeeplySound := by
  obtain ⟨s, hs, hn⟩ := h
  exact hs.sound.shows hn

/-- A run that shows a node shows what lies inside it. -/
theorem Node.Reachable.of_contains {n m : Node} (h : n.Reachable) (hm : n.Contains m) :
    m.Reachable := by
  obtain ⟨s, hs, hn⟩ := h
  exact ⟨s, hs, hn.of_reaches (Value.reaches_node_iff.2 (Or.inr hm))⟩

namespace Scene

/-- **Every node that a run can show is sound, and so is every node inside it**: its schema is the one
its registry holds for its kind, it has one slot for each field, and each slot fits its field.  All nodes
inside belong to the registry of the whole. -/
theorem Reached.sound_of_shows {s : Scene} (h : s.Reached) {n : Node} (hn : s.Shows n) :
    n.Sound ∧ ∀ m, n.Contains m → m.Sound ∧ m.home = n.home := by
  have hdeep : n.DeeplySound := h.sound.shows hn
  refine ⟨hdeep.sound, ?_⟩
  intro m hm
  exact ⟨(hdeep.of_contains hm).sound, hdeep.home_eq hm⟩

/-! ### A run that edits a child

Links hold a link and a sequence of links, and need a name.  The run makes a link three deep, whose
last link has no name, and then takes the links of the one in the middle away. -/

namespace Link

/-- The kind of links. -/
def schema : NodeSchema :=
  ⟨"link", none, none,
    [⟨"next", [.node "link"], .optional, none⟩, ⟨"rest", [.node "link"], .zeroOrMore, none⟩,
      ⟨"names", [.identifier], .oneOrMore, none⟩]⟩

/-- The registry of links alone. -/
def home : Sealed := ⟨0, Registry.empty.append schema, rfl⟩

/-- A link with nothing written into it. -/
def plain : Node := Node.fresh home schema

/-- A link with a name. -/
def named : Node := .mk home schema [.unset, .many [], .many [.text "x"]]

/-- A named link that goes on with two links, the second without a name. -/
def middle : Node :=
  .mk home schema [.unset, .many [.node named, .node plain], .many [.text "x"]]

/-- A named link that holds the one in the middle. -/
def outer : Node := .mk home schema [.single (.node middle), .many [], .many [.text "x"]]

/-- The edit that takes the links away. -/
def shorten (n : Node) : Unit × Node := ((), (Write.clear "rest").after n)

/-- The scene in which the whole link is made. -/
def made : Scene :=
  ((({ Scene.start with homes := [home] }.put "plain" plain).put "named" named).put "middle"
    middle).put "outer" outer

/-- The edit of the link in the middle. -/
def frame : Frame := ⟨"outer", outer, "next", "inner", middle⟩

/-- The scene after the edit. -/
def shortened : Scene :=
  ((made.enter frame).put "inner" (shorten middle).2).leave frame []
    (outer.afterEdit "next" shorten)

theorem reached_made : made.Reached := by
  have hname : ∀ s : Scene, s.Supplies (.seq [.text "x"]) := by
    intro s
    exact supplies_seq (by simpa using supplies_text s "x")
  have hgrown : (Registry.empty.append schema).Grown := .register .empty (s := schema) rfl
  have hseal : (Registry.empty.append schema).seal 0 = .ok home := rfl
  have hstart : Scene.Reached { Scene.start with homes := [home] } :=
    Relation.ReflTransGen.single (.sealing hgrown hseal)
  have hplain := hstart.tail
    (.create "plain" (c := .node "link") List.mem_cons_self (by simp [Creation.values]) rfl)
  have hnamed := hplain.tail
    (.create "named" (c := .constructWith "link" [("names", .seq [.text "x"])])
      List.mem_cons_self (by simpa [Creation.values] using hname _) rfl)
  have hmiddle := hnamed.tail
    (.create "middle"
      (c := .build "link" []
        [("rest", .seq [.node named, .node plain]), ("names", .seq [.text "x"])])
      List.mem_cons_self
      (by
        simp only [Creation.values, List.map_cons, List.map_nil, List.nil_append,
          List.forall_mem_cons]
        refine ⟨supplies_seq ?_, hname _, by simp⟩
        simp only [List.forall_mem_cons]
        exact ⟨supplies_node (.of_name "named" rfl), supplies_node (.of_name "plain" rfl),
          by simp⟩) rfl)
  exact hmiddle.tail
    (.create "outer" (c := .build "link" [.node middle] [("names", .seq [.text "x"])])
      List.mem_cons_self
      (by
        simp only [Creation.values, List.map_cons, List.map_nil, List.cons_append,
          List.nil_append, List.forall_mem_cons]
        exact ⟨supplies_node (.of_name "middle" rfl), hname _, by simp⟩) rfl)

/-- So a run can show the whole link. -/
theorem reachable_outer : outer.Reachable := ⟨made, reached_made, .of_name "outer" rfl⟩

theorem reached_shortened : shortened.Reached := by
  -- the call on the child is a step of its own, between the beginning of the edit and its end
  have hentered := reached_made.tail (.enter (f := frame) rfl rfl rfl)
  have hwritten := hentered.tail
    (.write (x := "inner") (w := .clear "rest") rfl (by simp [Write.values]))
  have hleave : Step ((made.enter frame).put "inner" (shorten middle).2) shortened :=
    .leave rfl rfl
  exact hwritten.tail hleave

end Link

theorem sound_of_shows_shortened :
    (Link.shortened.Reached ∧ Link.shortened.Shows (Link.outer.afterEdit "next" Link.shorten)) ∧
      (Link.outer.afterEdit "next" Link.shorten).Sound ∧
        ∀ m, (Link.outer.afterEdit "next" Link.shorten).Contains m →
          m.Sound ∧ m.home = (Link.outer.afterEdit "next" Link.shorten).home := by
  have hshows : Link.shortened.Shows (Link.outer.afterEdit "next" Link.shorten) :=
    .of_name "outer" rfl
  exact ⟨⟨Link.reached_shortened, hshows⟩, Link.reached_shortened.sound_of_shows hshows⟩

end Scene

end TreeSchema
