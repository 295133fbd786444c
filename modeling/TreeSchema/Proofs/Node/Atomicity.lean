/-
# TreeSchema.Proofs.Node.Atomicity — a call on a node changes one field or nothing.

An operation in place leaves a node behind whatever it answers.  This file says which one.  A write
leaves the node that the judgement of the value promises, or the node it found.  The edit of a child
first runs on the child and puts it into the parent; what is refused afterwards is taken back, so that
the parent is again the node it was, sub-trees included.  An edit that succeeds puts another node where
a node was, so it fills no field and empties none.
-/
import TreeSchema.Node.Completeness
import TreeSchema.Node.InPlace
import TreeSchema.Proofs.Scene

namespace TreeSchema

/-! ## One slot replaced -/

namespace Node

variable {n : Node} {i j : Nat} {s t : Slot}

/-- What a place holds, unless it is nothing, stands in the row of slots. -/
theorem getElem?_of_slotAt (h : n.slotAt i = s) (hs : s ≠ .unset) : n.slots[i]? = some s := by
  rw [slotAt, List.getD_eq_getElem?_getD] at h
  cases hi : n.slots[i]? with
  | none =>
      rw [hi, Option.getD_none] at h
      exact absurd h.symm hs
  | some t =>
      rw [hi, Option.getD_some] at h
      rw [h]

theorem putSlot_putSlot (n : Node) (i : Nat) (s t : Slot) :
    (n.putSlot i s).putSlot i t = n.putSlot i t := by
  simp [putSlot, home, schema, slots]

/-- Putting back what a place holds changes nothing. -/
theorem putSlot_self (h : n.slots[i]? = some s) : n.putSlot i s = n := by
  obtain ⟨home, schema, slots⟩ := n
  have hi : i < slots.length := (List.getElem?_eq_some_iff.1 h).1
  have hs : slots[i] = s := (List.getElem?_eq_some_iff.1 h).2
  simp [putSlot, Node.home, Node.schema, Node.slots, ← hs]

theorem slotAt_putSlot_self (h : n.slots[i]? = some s) : (n.putSlot i t).slotAt i = t := by
  have hi : i < n.slots.length := (List.getElem?_eq_some_iff.1 h).1
  simp [slotAt, List.getD_eq_getElem?_getD, List.getElem?_set_self hi]

theorem slotAt_putSlot_of_ne (h : i ≠ j) : (n.putSlot i s).slotAt j = n.slotAt j := by
  simp [slotAt, List.getD_eq_getElem?_getD, List.getElem?_set_ne h]

/-- The fields of a node stay where they are when a slot is replaced. -/
@[simp] theorem locate_putSlot (n : Node) (i : Nat) (s : Slot) (field : String) :
    (n.putSlot i s).locate field = n.locate field := rfl

/-- A field reads as the slot that was put at its place. -/
theorem get_putSlot_self {field : String} {f : FieldSpec} (hl : n.locate field = .ok (f, i))
    (h : n.slots[i]? = some s) : (n.putSlot i t).get field = .ok t :=
  get_eq_ok_iff.2 ⟨(f, i), hl, (slotAt_putSlot_self h).symm⟩

/-- What a node misses depends on its slots only as far as they satisfy their fields. -/
theorem missing_putSlot (h : n.slots[i]? = some s)
    (hst : ∀ m : Multiplicity, m.isSatisfiedBy t = m.isSatisfiedBy s) :
    (n.putSlot i t).missing = n.missing := by
  obtain ⟨home, schema, slots⟩ := n
  have hrow : ∀ (fs : List FieldSpec) (ss : List Slot) (i : Nat), ss[i]? = some s →
      ((fs.zip (ss.set i t)).filter fun p => !p.1.multiplicity.isSatisfiedBy p.2).map
          (fun p => p.1.name)
        = ((fs.zip ss).filter fun p => !p.1.multiplicity.isSatisfiedBy p.2).map
          fun p => p.1.name := by
    intro fs
    induction fs with
    | nil => simp
    | cons f fs ih =>
        intro ss i hi
        cases ss with
        | nil => simp at hi
        | cons u ss =>
            cases i with
            | zero =>
                obtain rfl : u = s := by simpa using hi
                simp only [List.set_cons_zero, List.zip_cons_cons, List.filter_cons, hst]
                split <;> simp
            | succ i =>
                have hrest := ih ss i (by simpa using hi)
                simp only [List.set_cons_succ, List.zip_cons_cons, List.filter_cons]
                split <;> simp [hrest]
  exact hrow schema.fields slots i h

/-- A slot that satisfies a field as the one before it leaves the completeness of the node as it was. -/
theorem finalize_putSlot (h : n.slots[i]? = some s)
    (hst : ∀ m : Multiplicity, m.isSatisfiedBy t = m.isSatisfiedBy s) :
    (n.putSlot i t).finalize = n.finalize := by
  simp only [finalize, missing_putSlot h hst, kind, schema_putSlot]

end Node

/-! ## One field changed -/

/-- Two nodes differ in one field at most: they belong to one registry and follow one schema, and every
other field holds the same. -/
structure Node.SameBut (field : String) (n n' : Node) : Prop where
  home : n'.home = n.home
  schema : n'.schema = n.schema
  get : ∀ g, g ≠ field → n'.get g = n.get g

/-- Replacing the slot of a field changes no other field. -/
theorem Node.SameBut.of_putSlot {n : Node} {field : String} {f : FieldSpec} {i : Nat}
    (h : n.locate field = .ok (f, i)) (s : Slot) : n.SameBut field (n.putSlot i s) := by
  refine ⟨rfl, rfl, ?_⟩
  intro g hg
  unfold Node.get
  rw [Node.locate_putSlot]
  cases hl : n.locate g with
  | error e => rfl
  | ok p =>
      obtain ⟨f', j⟩ := p
      have hi := NodeSchema.locate?_eq_some (Node.locate_eq_ok_iff.1 h)
      have hj := NodeSchema.locate?_eq_some (Node.locate_eq_ok_iff.1 hl)
      -- one place holds one field, and one field has one name
      have hne : i ≠ j := by
        rintro rfl
        obtain rfl : f = f' := Option.some.inj (hi.1.symm.trans hj.1)
        exact hg (hj.2.symm.trans hi.2)
      simp [Except.map, Node.slotAt_putSlot_of_ne hne]

/-! ## Work in place

What each step of the work answers, and the node it leaves. -/

namespace InPlace

variable {m : Type → Type} [Monad m] {α β : Type} {n : Node}

/-- Work goes on with the node that its first part leaves, and stops there at an error. -/
theorem run_bind (x : InPlace m α) (f : α → InPlace m β) :
    (x >>= f).run.run n = x.run.run n >>= fun p =>
      match p with
      | (.ok a, n') => (f a).run.run n'
      | (.error e, n') => pure (.error e, n') := by
  rw [ExceptT.run_bind, StateT.run_bind]
  refine bind_congr ?_
  rintro ⟨_ | a, n'⟩ <;> simp

theorem run_ofExcept (x : Except TreeError α) :
    (MonadExcept.ofExcept x : InPlace m α).run.run n = pure (x, n) := by
  cases x <;> simp [MonadExcept.ofExcept]

variable [LawfulMonad m]

theorem run_get : (get : InPlace m Node).run.run n = pure (.ok n, n) := by
  change (Except.ok <$> (get : StateT Node m Node)).run n = _
  simp

theorem run_putSlot (i : Nat) (s : Slot) :
    (putSlot i s : InPlace m Unit).run.run n = pure (.ok (), n.putSlot i s) := by
  change (Except.ok <$> (modify fun n => n.putSlot i s : StateT Node m Unit)).run n = _
  simp

theorem run_liftM (x : m α) :
    (liftM x : InPlace m α).run.run n = (fun a => (.ok a, n)) <$> x := by
  change (Except.ok <$> (StateT.lift x : StateT Node m α)).run n = _
  simp

end InPlace

/-! ## Writes in place -/

/-- The field that a write is about. -/
def Write.field : Write → String
  | set field _ => field
  | push field _ => field
  | clear field => field

/-- A write as work in place. -/
def Write.inPlace {m : Type → Type} [Monad m] : Write → InPlace m Unit
  | set field v => InPlace.set field v
  | push field v => InPlace.push field v
  | clear field => InPlace.clear field

section

variable {m : Type → Type} [Monad m] [LawfulMonad m]

/-- In place or not, a write is judged alike, and the node it leaves is the changed one or the one it
found. -/
theorem Write.run_inPlace (w : Write) (n : Node) :
    w.inPlace.run.run n = (pure ((w.run n).map fun _ => (), w.after n) : m _) := by
  cases w with
  | set field v =>
      simp only [inPlace, after, run, InPlace.set, Node.set, Node.write, InPlace.run_bind,
        InPlace.run_get, InPlace.run_ofExcept, pure_bind]
      cases hl : n.locate field with
      | error e => simp [Except.map]
      | ok p =>
          cases ha : n.accept p.1 v <;> simp [ha, InPlace.run_putSlot, Except.map]
  | push field v =>
      simp only [inPlace, after, run, InPlace.push, Node.push, InPlace.run_bind,
        InPlace.run_get, InPlace.run_ofExcept, pure_bind]
      cases hl : n.locate field with
      | error e => simp [Except.map]
      | ok p =>
          obtain ⟨f, i⟩ := p
          cases hm : f.multiplicity.isSequence <;> cases ht : Node.takesElement n.home f v <;>
            simp [hm, ht, InPlace.run_putSlot, Except.map]
  | clear field =>
      simp only [inPlace, after, run, InPlace.clear, Node.clear, InPlace.run_bind,
        InPlace.run_get, InPlace.run_ofExcept, pure_bind]
      cases hl : n.locate field <;> simp [InPlace.run_putSlot, Except.map]

/-- A write that succeeds changes its own field at most. -/
theorem Write.sameBut_of_run {w : Write} {n n' : Node} (h : w.run n = .ok n') :
    n.SameBut w.field n' := by
  cases w with
  | set field v =>
      obtain ⟨p, hl, hw⟩ := Node.set_eq_ok_iff.1 h
      obtain ⟨slot, -, rfl⟩ := Node.write_eq_ok_iff.1 hw
      exact .of_putSlot hl slot
  | push field v =>
      obtain ⟨f, i, hl, -, -, rfl⟩ := Node.push_eq_ok_iff.1 h
      exact .of_putSlot hl _
  | clear field =>
      obtain ⟨p, hl, rfl⟩ := Node.clear_eq_ok_iff.1 h
      exact .of_putSlot hl _

/-! ## The edit of a child in place -/

theorem InPlace.run_editChild_of_error {α : Type} {n : Node} {field : String} {e : TreeError}
    (hl : n.locate field = .error e) (edit : StateT Node m α) :
    (InPlace.editChild field edit).run.run n = pure (.error e, n) := by
  simp only [InPlace.editChild, run_bind, run_get, run_ofExcept, hl, pure_bind]

/-- Without a sub-node in the field nothing runs and nothing changes. -/
theorem InPlace.run_editChild_of_no_child {α : Type} {n : Node} {field : String} {f : FieldSpec}
    {i : Nat} (hl : n.locate field = .ok (f, i)) (hs : ∀ child, n.slotAt i ≠ .single (.node child))
    (edit : StateT Node m α) :
    (InPlace.editChild field edit).run.run n = pure (.ok none, n) := by
  -- the hypothesis `hs` decides the match
  simp only [InPlace.editChild, run_bind, run_get, run_ofExcept, hl, pure_bind]
  rfl

/-- With a sub-node in the field the edit runs on it, and the field's judgement of the child it leaves
decides which of the two children the parent keeps. -/
theorem InPlace.run_editChild_of_child {α : Type} {n child : Node} {field : String} {f : FieldSpec}
    {i : Nat} (hl : n.locate field = .ok (f, i)) (hs : n.slotAt i = .single (.node child))
    (edit : StateT Node m α) :
    (InPlace.editChild field edit).run.run n = edit.run child >>= fun p =>
      pure <|
        if f.admits n.home (.node p.2) then
          (.ok (some p.1), n.putSlot i (.single (.node p.2)))
        else (.error (n.refusal f (.node p.2) (.notAdmitted f.typeNames)), n) := by
  have hback : n.putSlot i (.single (.node child)) = n :=
    Node.putSlot_self (Node.getElem?_of_slotAt hs Slot.noConfusion)
  simp only [InPlace.editChild, run_bind, run_get, run_ofExcept, run_liftM, run_putSlot, hl, hs,
    pure_bind, bind_map_left, Node.putSlot_putSlot, hback]
  refine bind_congr ?_
  rintro ⟨answer, edited⟩
  cases ha : f.admits n.home (.node edited) <;> simp [run_putSlot, Except.map]

end

/-- What the call answers and leaves once it is known what the edit does in the world it runs in. -/
theorem InPlace.run_editChild_of_run {σ α : Type} {n child child' : Node} {field : String}
    {f : FieldSpec} {i : Nat} (hl : n.locate field = .ok (f, i))
    (hs : n.slotAt i = .single (.node child)) {edit : StateT Node (StateM σ) α} {world world' : σ}
    {answer : α} (hrun : (edit.run child).run world = ((answer, child'), world')) :
    ((InPlace.editChild field edit).run.run n).run world =
      (if f.admits n.home (.node child') then
        (.ok (some answer), n.putSlot i (.single (.node child')))
      else (.error (n.refusal f (.node child') (.notAdmitted f.typeNames)), n), world') := by
  rw [run_editChild_of_child hl hs, StateT.run_bind, hrun]
  rfl

/-- The edit of a child leaves the node it found, or puts a node where a node was. -/
theorem InPlace.node_of_editChild {σ α : Type} (n : Node) (field : String)
    (edit : StateT Node (StateM σ) α) (world : σ) :
    let n' := (((InPlace.editChild field edit).run.run n).run world).1.2
    n' = n ∨ ∃ i child child', n.slotAt i = .single (.node child) ∧
      n' = n.putSlot i (.single (.node child')) := by
  intro n'
  cases hl : n.locate field with
  | error e =>
      refine Or.inl ?_
      simp only [n', run_editChild_of_error hl]
      rfl
  | ok p =>
      obtain ⟨f, i⟩ := p
      by_cases hs : ∃ child, n.slotAt i = .single (.node child)
      · obtain ⟨child, hs⟩ := hs
        rcases hrun : (edit.run child).run world with ⟨⟨answer, child'⟩, world'⟩
        simp only [n', run_editChild_of_run hl hs hrun]
        split
        · exact Or.inr ⟨i, child, child', hs, rfl⟩
        · exact Or.inl rfl
      · refine Or.inl ?_
        simp only [n', run_editChild_of_no_child hl fun child hc => hs ⟨child, hc⟩]
        rfl

/-- In place or not, the edit of a child answers alike and leaves the same node. -/
theorem InPlace.run_editChild_eq {α : Type} (n : Node) (field : String) (edit : StateT Node Id α) :
    Id.run ((InPlace.editChild field edit).run.run n)
      = ((n.editChild field edit).map Prod.fst, n.afterEdit field edit) := by
  unfold Node.afterEdit
  cases hl : n.locate field with
  | error e => simp [run_editChild_of_error hl, Node.editChild, hl, Except.map]
  | ok p =>
      obtain ⟨f, i⟩ := p
      by_cases hs : ∃ child, n.slotAt i = .single (.node child)
      · obtain ⟨child, hs⟩ := hs
        rcases hrun : edit child with ⟨answer, child'⟩
        have hcall : Id.run ((InPlace.editChild field edit).run.run n) =
            if f.admits n.home (.node child') then
              (.ok (some answer), n.putSlot i (.single (.node child')))
            else (.error (n.refusal f (.node child') (.notAdmitted f.typeNames)), n) := by
          rw [run_editChild_of_child hl hs, StateT.run, hrun]
          rfl
        rw [hcall]
        cases ha : f.admits n.home (.node child') <;>
          simp [Node.editChild, hl, hs, hrun, ha, Except.map]
      · have hnone : ∀ child, n.slotAt i ≠ .single (.node child) := fun c hc => hs ⟨c, hc⟩
        simp [run_editChild_of_no_child hl hnone, Node.editChild, hl, Except.map]

/-- **A call on a node changes one field or nothing.**  A refused call leaves the very node it found,
and so does an edit of a child where there is no child; that edit is not even begun, since any other
would have done the same.  An accepted call keeps the registry, the schema and every other field.  The
edit of a child may do anything to the child and to the world beside it; accepted, it leaves in its
field the child as the edit left it, and what the node still misses is what it missed before. -/
theorem Node.changes_field_or_nothing {σ α : Type} (n : Node) :
    (∀ w : Write,
      match Id.run (w.inPlace.run.run n) with
      | (.error _, n') => n' = n
      | (.ok (), n') => n.SameBut w.field n') ∧
    ∀ (field : String) (edit : StateT Node (StateM σ) α) (world : σ),
      match ((InPlace.editChild field edit).run.run n).run world with
      | ((.error _, n'), _) => n' = n
      | ((.ok none, n'), world') =>
        n' = n ∧ world' = world ∧
          ∀ (other : StateT Node (StateM σ) α) (elsewhere : σ),
            ((InPlace.editChild field other).run.run n).run elsewhere
              = ((.ok none, n), elsewhere)
      | ((.ok (some answer), n'), world') =>
        ∃ child child' : Node,
          n.get field = .ok (.single (.node child)) ∧
            (edit.run child).run world = ((answer, child'), world') ∧
              n.SameBut field n' ∧ n'.get field = .ok (.single (.node child')) ∧
                n'.finalize = n.finalize := by
  constructor
  · intro w
    rw [Write.run_inPlace]
    cases hw : w.run n with
    | error e => simp [Except.map, Write.after, hw]
    | ok n' => simpa [Except.map, Write.after, hw] using Write.sameBut_of_run hw
  · intro field edit world
    cases hl : n.locate field with
    | error e =>
        rw [InPlace.run_editChild_of_error hl]
        rfl
    | ok p =>
        obtain ⟨f, i⟩ := p
        by_cases hs : ∃ child, n.slotAt i = .single (.node child)
        · obtain ⟨child, hs⟩ := hs
          rcases hrun : (edit.run child).run world with ⟨⟨answer, child'⟩, world'⟩
          have hcall : ((InPlace.editChild field edit).run.run n).run world =
              (if f.admits n.home (.node child') then
                (.ok (some answer), n.putSlot i (.single (.node child')))
              else (.error (n.refusal f (.node child') (.notAdmitted f.typeNames)), n), world') := by
            rw [InPlace.run_editChild_of_child hl hs, StateT.run_bind, hrun]
            rfl
          rw [hcall]
          cases ha : f.admits n.home (.node child') with
          | false => rfl
          | true =>
              have hslot := Node.getElem?_of_slotAt hs Slot.noConfusion
              have hget : n.get field = .ok (.single (.node child)) :=
                Node.get_eq_ok_iff.2 ⟨_, hl, hs.symm⟩
              have hget' :
                  (n.putSlot i (.single (.node child'))).get field = .ok (.single (.node child')) :=
                Node.get_eq_ok_iff.2 ⟨(f, i), hl, (Node.slotAt_putSlot_self hslot).symm⟩
              have hfinalize : (n.putSlot i (.single (.node child'))).finalize = n.finalize :=
                Node.finalize_putSlot hslot fun m => by cases m <;> rfl
              exact ⟨child, child', hget, hrun, .of_putSlot hl _, hget', hfinalize⟩
        · have hnone : ∀ child, n.slotAt i ≠ .single (.node child) := fun c hc => hs ⟨c, hc⟩
          rw [InPlace.run_editChild_of_no_child hl hnone]
          refine ⟨rfl, rfl, ?_⟩
          intro other elsewhere
          rw [InPlace.run_editChild_of_no_child hl hnone]
          rfl

/-- A child that an edit replaces by a node of another registry is put back. -/
example :
    let foreign := Node.fresh { Scene.Link.home with stamp := 1 } Scene.Link.schema
    let replace : StateT Node Id Unit := fun _ => ((), foreign)
    (Id.run ((InPlace.editChild "next" replace).run.run Scene.Link.outer)).2
      = Scene.Link.outer := rfl

end TreeSchema
