/-
# TreeSchema.Proofs.Scene.Origin — every node comes from a registry that was grown.

No operation moves a node to another registry.  A node that a run can show therefore still belongs to
the registry it was made from, and that registry was grown by registering before it was sealed.  What
registering guarantees of every schema, such as that kinds and field names are identifiers, thereby holds
of every node.
-/
import TreeSchema.Proofs.Node.Atomicity

namespace TreeSchema

/-! ## No operation moves a node -/

theorem Write.home_after (w : Write) (n : Node) : (w.after n).home = n.home := by
  unfold Write.after
  cases h : w.run n with
  | error e => rfl
  | ok n' => exact (Write.sameBut_of_run h).home

namespace Node

variable {n n' : Node}

theorem home_afterEdit {α : Type} (n : Node) (field : String) (edit : Node → α × Node) :
    (n.afterEdit field edit).home = n.home := by
  unfold afterEdit
  cases h : n.editChild field edit with
  | error e => rfl
  | ok r =>
      obtain ⟨answer, n'⟩ := r
      obtain ⟨f, i, -, ⟨child, -, -, -, rfl⟩ | ⟨-, -, rfl⟩⟩ := editChild_eq_ok_iff.1 h <;> rfl

/-- The child in a field lies inside the node. -/
theorem contains_of_get {field : String} {child : Node}
    (h : n.get field = .ok (.single (.node child))) : n.Contains child := by
  obtain ⟨p, -, hs⟩ := get_eq_ok_iff.1 h
  have hslot := getElem?_of_slotAt hs.symm Slot.noConfusion
  exact ⟨_, List.mem_of_getElem? hslot, _, List.mem_singleton_self _, .here child⟩

theorem home_write {p : FieldSpec × Nat} {v : Value} (h : n.write p v = .ok n') :
    n'.home = n.home := by
  obtain ⟨slot, -, rfl⟩ := write_eq_ok_iff.1 h
  rfl

theorem home_fillPositional {ps : List (FieldSpec × Nat)} {vs : List Value}
    (h : n.fillPositional ps vs = .ok n') : n'.home = n.home := by
  induction ps generalizing n vs with
  | nil =>
      obtain rfl : n = n' := by simpa [fillPositional] using h
      rfl
  | cons p ps ih =>
      cases vs with
      | nil =>
          obtain rfl : n = n' := by simpa [fillPositional] using h
          rfl
      | cons v vs =>
          rw [fillPositional] at h
          cases hw : n.write p v with
          | error e => simp [hw] at h
          | ok n₁ =>
              rw [hw] at h
              exact (ih h).trans (home_write hw)

theorem home_fillNamed {filled : List Nat} {vs : List (String × Value)}
    (h : n.fillNamed filled vs = .ok n') : n'.home = n.home := by
  induction vs generalizing n filled with
  | nil =>
      obtain rfl : n = n' := by simpa [fillNamed] using h
      rfl
  | cons p rest ih =>
      rw [fillNamed] at h
      cases hl : n.locate p.1 with
      | error e => simp [hl] at h
      | ok q =>
          simp only [hl] at h
          split at h
          · simp at h
          · cases hw : n.write q p.2 with
            | error e => simp [hw] at h
            | ok n₁ =>
                rw [hw] at h
                exact (ih h).trans (home_write hw)

end Node

theorem Sealed.home_of_node {home : Sealed} {kind : String} {n : Node}
    (h : home.node kind = .ok n) : n.home = home := by
  obtain ⟨s, -, rfl⟩ := node_eq_ok_iff.1 h
  rfl

theorem Sealed.home_of_build {home : Sealed} {kind : String} {n : Node} {positional : List Value}
    {named : List (String × Value)} (h : home.build kind positional named = .ok n) :
    n.home = home := by
  unfold build at h
  cases hn : home.node kind with
  | error e => simp [hn] at h
  | ok n₀ =>
      simp only [hn] at h
      split at h
      · simp at h
      · cases hf : n₀.fillPositional n₀.schema.fields.zipIdx positional with
        | error e => simp [hf] at h
        | ok n₁ =>
            rw [hf] at h
            calc n.home = n₁.home := Node.home_fillNamed h
              _ = n₀.home := Node.home_fillPositional hf
              _ = home := home_of_node hn

theorem Creation.home_of_run {home : Sealed} {c : Creation} {n : Node} (h : c.run home = .ok n) :
    n.home = home := by
  cases c with
  | node kind => exact Sealed.home_of_node h
  | construct kind values => exact Sealed.home_of_build h
  | constructWith kind values => exact Sealed.home_of_build h
  | build kind positional named => exact Sealed.home_of_build h

/-! ## What every run keeps -/

namespace Scene

variable {s s' : Scene}

/-- The nodes the scene holds belong to grown registries, the parents of unfinished edits included. -/
structure Rooted (s : Scene) : Prop where
  nodes : ∀ x n, s.nodes x = some n → n.home.registry.Grown
  parents : ∀ f ∈ s.frames, f.parent.home.registry.Grown

/-- A node that a sound scene shows belongs to the registry of one that it holds. -/
theorem Rooted.shows (h : s.Rooted) (hs : s.Sound) {m : Node} (hm : s.Shows m) :
    m.home.registry.Grown := by
  obtain ⟨x, n, hx, rfl | hc⟩ := hm
  · exact h.nodes x m hx
  · rw [(hs.nodes x n hx).home_eq hc]
    exact h.nodes x n hx

theorem Rooted.put (h : s.Rooted) (x : String) {n : Node} (hn : n.home.registry.Grown) :
    (s.put x n).Rooted :=
  ⟨forall_update h.nodes x fun _ hm => Option.some.inj hm ▸ hn, h.parents⟩

/-- One step keeps all nodes in grown registries. -/
theorem Step.rooted (hstep : Step s s') (hs : s.Sound) (h : s.Rooted) : s'.Rooted := by
  cases hstep with
  | sealing => exact ⟨h.nodes, h.parents⟩
  | install => exact ⟨h.nodes, h.parents⟩
  | create x hhome _ hrun =>
      refine h.put x ?_
      rw [Creation.home_of_run hrun]
      exact hs.homes _ hhome
  | copy x hm => exact h.put x (h.shows hs hm)
  | write hx _ =>
      refine h.put _ ?_
      rw [Write.home_after]
      exact h.nodes _ _ hx
  | @enter f hx hget _ =>
      have hparent : f.parent.home.registry.Grown := h.nodes _ _ hx
      have hchild : f.child.home.registry.Grown :=
        h.shows hs ⟨_, _, hx, Or.inr (Node.contains_of_get hget)⟩
      refine ⟨?_, List.forall_mem_cons.2 ⟨hparent, h.parents⟩⟩
      refine forall_update (forall_update h.nodes f.name (by simp)) f.childName ?_
      exact fun m hm => Option.some.inj hm ▸ hchild
  | @leave f rest _ edit hframes _ =>
      have hparents := h.parents
      rw [hframes, List.forall_mem_cons] at hparents
      refine ⟨?_, hparents.2⟩
      refine forall_update (forall_update h.nodes f.childName (by simp)) f.name ?_
      intro m hm
      rw [← Option.some.inj hm, Node.home_afterEdit]
      exact hparents.1

theorem Reached.rooted (h : s.Reached) : s.Rooted := by
  induction h with
  | refl => exact ⟨by simp [start], by simp [start]⟩
  | tail hreached hstep ih => exact hstep.rooted (Reached.sound hreached) ih

end Scene

/-- The registry of every node that a run can show was grown by registering. -/
theorem Node.Reachable.grown {n : Node} (h : n.Reachable) : n.home.registry.Grown := by
  obtain ⟨s, hs, hn⟩ := h
  exact hs.rooted.shows hs.sound hn

/-- So its schema is proper. -/
theorem Node.Reachable.proper_schema {n : Node} (h : n.Reachable) : n.schema.Proper := by
  have hknown := h.deeplySound.sound.schema_known
  exact h.grown.proper _ (h.grown.coherent.get?_eq_some_iff.1 hknown).1

end TreeSchema
