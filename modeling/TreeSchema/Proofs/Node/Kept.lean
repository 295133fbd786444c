/-
# TreeSchema.Proofs.Node.Kept — edits of a child that are never refused.

After an edit the field judges its child again, because an edit may have put any other node in the child's
place.  An edit that does no more than make calls on the child cannot fail that judgement.  No call changes
the registry or the schema of the node it is made on, whatever it is given, whatever the edits inside it do,
and whether or not it is refused; and a field takes a node for its registry and its kind alone, so a child
that was taken when it was stored is taken again.
-/
import TreeSchema.Proofs.Node.Atomicity

namespace TreeSchema

/-! ## Nodes that a field takes alike -/

/-- The second node belongs to the registry of the first and follows its schema. -/
structure Node.Akin (n n' : Node) : Prop where
  home : n'.home = n.home
  schema : n'.schema = n.schema

namespace Node

variable {n n' m : Node}

theorem Akin.refl (n : Node) : n.Akin n := ⟨rfl, rfl⟩

theorem Akin.trans (h : n.Akin n') (h' : n'.Akin m) : n.Akin m :=
  ⟨h'.home.trans h.home, h'.schema.trans h.schema⟩

theorem akin_putSlot (n : Node) (i : Nat) (s : Slot) : n.Akin (n.putSlot i s) := ⟨rfl, rfl⟩

theorem SameBut.akin {field : String} (h : n.SameBut field n') : n.Akin n' := ⟨h.home, h.schema⟩

/-- What a field takes, it takes after any change that leaves registry and schema. -/
theorem Akin.admits (h : n.Akin n') {asked : Sealed} {f : FieldSpec}
    (hf : f.admits asked (.node n) = true) : f.admits asked (.node n') = true := by
  have hkind : n'.kind = n.kind := by rw [kind, kind, h.schema]
  rwa [FieldSpec.admits_node_eq h.home hkind]

/-- A stored child is one that its field takes. -/
theorem Sound.admits_child (h : n.Sound) {child : Node} {field : String} {f : FieldSpec} {i : Nat}
    (hl : n.locate field = .ok (f, i)) (hs : n.slotAt i = .single (.node child)) :
    f.admits n.home (.node child) = true := by
  have hfit : (n.slotAt i).Fits n.home f := h.slotAt_fits (getElem?_of_locate hl)
  rw [hs] at hfit
  exact FieldSpec.admits_iff.2 (hfit.takes (.node child) List.mem_cons_self).2

end Node

/-- An edit that leaves a node of the child's registry and schema is accepted. -/
theorem InPlace.run_editChild_of_akin {σ α : Type} {n child child' : Node} (hn : n.Sound)
    {field : String} {f : FieldSpec} {i : Nat} (hl : n.locate field = .ok (f, i))
    (hs : n.slotAt i = .single (.node child)) {edit : StateT Node (StateM σ) α} {world world' : σ}
    {answer : α} (hrun : (edit.run child).run world = ((answer, child'), world'))
    (hakin : child.Akin child') :
    ((InPlace.editChild field edit).run.run n).run world
      = ((.ok (some answer), n.putSlot i (.single (.node child'))), world') := by
  rw [run_editChild_of_run hl hs hrun, if_pos (hakin.admits (hn.admits_child hl hs))]

/-! ## Edits that only make calls -/

/-- Work on a node that changes it by calls alone.  It may look at the node, do anything beside it, and go on
by what it has learnt, refusals included. -/
inductive CallsOnly {σ : Type} : {α : Type} → StateT Node (StateM σ) α → Prop
  | pure {α : Type} (a : α) : CallsOnly (pure a)
  | look : CallsOnly get
  | beside {α : Type} (x : StateM σ α) : CallsOnly (StateT.lift x)
  | write (w : Write) : CallsOnly w.inPlace.run
  /-- The edit inside may do anything to the child in that field. -/
  | editChild {α : Type} (field : String) (edit : StateT Node (StateM σ) α) :
      CallsOnly (InPlace.editChild field edit).run
  | bind {α β : Type} {x : StateT Node (StateM σ) α} {k : α → StateT Node (StateM σ) β} :
      CallsOnly x → (∀ a, CallsOnly (k a)) → CallsOnly (x >>= k)

namespace CallsOnly

variable {σ α β : Type}

/-- Calls that stop at the first error. -/
theorem bindOk {x : InPlace (StateM σ) α} {k : α → InPlace (StateM σ) β} (hx : CallsOnly x.run)
    (hk : ∀ a, CallsOnly (k a).run) : CallsOnly (x >>= k).run := by
  rw [ExceptT.run_bind]
  apply bind hx
  intro r
  cases r with
  | ok a => exact hk a
  | error e => exact pure _

/-- Calls for each element of a list. -/
theorem forM {xs : List β} {act : β → StateT Node (StateM σ) Unit}
    (h : ∀ x ∈ xs, CallsOnly (act x)) : CallsOnly (xs.forM act) := by
  induction xs with
  | nil => exact pure ()
  | cons x xs ih =>
      obtain ⟨hx, hxs⟩ := List.forall_mem_cons.1 h
      exact bind hx fun _ => ih hxs

/-- A write leaves a node of the same registry and schema, accepted or refused. -/
theorem akin_of_write (w : Write) (n : Node) (world : σ) :
    n.Akin (((w.inPlace : InPlace (StateM σ) Unit).run.run n).run world).1.2 := by
  rw [Write.run_inPlace]
  change n.Akin (w.after n)
  unfold Write.after
  cases hw : w.run n with
  | ok n' => exact (Write.sameBut_of_run hw).akin
  | error e => exact .refl n

/-- So does the edit of a child, whatever it does to that one. -/
theorem akin_of_editChild (field : String) (edit : StateT Node (StateM σ) α) (n : Node)
    (world : σ) : n.Akin (((InPlace.editChild field edit).run.run n).run world).1.2 := by
  rcases InPlace.node_of_editChild n field edit world with hsame | ⟨i, child, child', -, hput⟩
  · rw [hsame]
    exact .refl n
  · rw [hput]
    exact n.akin_putSlot i _

/-- **So does work that makes any number of calls.** -/
theorem akin {edit : StateT Node (StateM σ) α} (h : CallsOnly edit) (n : Node) (world : σ) :
    n.Akin ((edit.run n).run world).1.2 := by
  induction h generalizing n world with
  | pure a => exact .refl n
  | look => exact .refl n
  | beside x => exact .refl n
  | write w => exact akin_of_write w n world
  | editChild field edit => exact akin_of_editChild field edit n world
  | @bind _ _ x k _ _ ihx ihk =>
      -- what comes second runs on the node and in the world that the first has left
      rcases hrun : (x.run n).run world with ⟨⟨a, n₁⟩, world₁⟩
      have hfirst : n.Akin n₁ := by
        have hx := ihx n world
        rwa [hrun] at hx
      have hrest : (((x >>= k).run n).run world) = ((k a).run n₁).run world₁ := by
        rw [StateT.run_bind, StateT.run_bind, hrun]
        rfl
      rw [hrest]
      exact hfirst.trans (ihk a n₁ world₁)

end CallsOnly

/-! ## The parent keeps the child -/

/-- **An edit that only makes calls on the child is never refused.**  The parent answers with what the edit
answered and keeps the child that the edit has left, in the same field and next to the same other fields. -/
theorem Node.Reachable.keeps_child_after_calls {σ α : Type} {n child : Node} (hn : n.Reachable)
    {field : String} (hchild : n.get field = .ok (.single (.node child)))
    {edit : StateT Node (StateM σ) α} (hcalls : CallsOnly edit) (world : σ) :
    ∃ answer child' world' n',
      (edit.run child).run world = ((answer, child'), world') ∧
        ((InPlace.editChild field edit).run.run n).run world
          = ((.ok (some answer), n'), world') ∧
        n'.get field = .ok (.single (.node child')) ∧ n.SameBut field n' ∧
          child'.home = child.home ∧ child'.schema = child.schema := by
  obtain ⟨⟨f, i⟩, hl, hs⟩ := Node.get_eq_ok_iff.1 hchild
  rcases hrun : (edit.run child).run world with ⟨⟨answer, child'⟩, world'⟩
  have hakin : child.Akin child' := by
    have h := hcalls.akin child world
    rwa [hrun] at h
  have hcall := InPlace.run_editChild_of_akin hn.deeplySound.sound hl hs.symm hrun hakin
  have hslot := Node.getElem?_of_slotAt hs.symm Slot.noConfusion
  have hget : (n.putSlot i (.single (.node child'))).get field = .ok (.single (.node child')) :=
    Node.get_putSlot_self hl hslot
  exact ⟨answer, child', world', _, rfl, hcall, hget, .of_putSlot hl _, hakin.home, hakin.schema⟩

/-! ### An edit whose last call is refused

The edit of the link in the middle counts its calls, the refused one included, and puts a named link next.
Then a link of another registry is to take the place of that one; this is refused, and the edit stops. -/

namespace Scene.Link

/-- A link of another registry. -/
def foreign : Node := .fresh { home with stamp := 1 } schema

/-- The edit. -/
def rearrange : StateT Node (StateM Nat) (Except TreeError Unit) := do
  [Write.push "names" (.int 3), .set "next" (.node named)].forM fun w => do
    let _ ← w.inPlace.run
    StateT.lift (modify (· + 1))
  (InPlace.editChild "next" (set foreign) >>= fun _ => InPlace.clear "rest").run

/-- What the edit makes of the link in the middle. -/
def rearranged : Node :=
  .mk home schema
    [.single (.node named), .many [.node named, .node plain], .many [.text "x"]]

/-- Why the foreign link is refused. -/
def refused : TreeError :=
  .wrongType ⟨"link", "next", "link(next=<unset>, rest=[], names=[])", .notAdmitted "link"⟩

theorem keeps_rearranged_child :
    (outer.Reachable ∧ outer.get "next" = .ok (.single (.node middle)) ∧ CallsOnly rearrange) ∧
      ∃ n', ((InPlace.editChild "next" rearrange).run.run outer).run 0
          = ((.ok (some (.error refused)), n'), 2) ∧
        n'.get "next" = .ok (.single (.node rearranged)) := by
  have hreachable : outer.Reachable := ⟨made, reached_made, .of_name "outer" rfl⟩
  have hchild : outer.get "next" = .ok (.single (.node middle)) := rfl
  have hcalls : CallsOnly rearrange := by
    apply CallsOnly.bind
    · exact .forM fun w _ => .bind (.write w) fun _ => .beside _
    · intro _
      exact .bindOk (.editChild "next" _) fun _ => .write (.clear "rest")
  refine ⟨⟨hreachable, hchild, hcalls⟩, ?_⟩
  obtain ⟨answer, child', world', n', hrun, hcall, hget, -⟩ :=
    hreachable.keeps_child_after_calls hchild hcalls 0
  have hedit : (rearrange.run middle).run 0 = ((.error refused, rearranged), 2) := rfl
  rw [hedit] at hrun
  cases hrun
  exact ⟨n', hcall, hget⟩

end Scene.Link

end TreeSchema
