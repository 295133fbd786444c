/-
# TreeSchema.Proofs.Node.Interchange — equal values can stand for each other.

Equality forgets more than it seems to: a text equals the identifier that wraps it, a boolean the
singleton that wraps it, and a node every other node of its kind that holds equal things.  Admission asks
for the very form of a value.  This file shows that no field can tell equal values apart, because a
wrapped identifier always is one, and lifts this to the operations.  On equal nodes, writes of equal
values both succeed, and leave equal nodes, or are both refused for one reason, and finishing the nodes or
the whole trees answers the same.
-/
import TreeSchema.Proofs.List
import TreeSchema.Proofs.Scene
import TreeSchema.Proofs.Value.Equality
import TreeSchema.Node.Completeness

namespace TreeSchema

/-- All nodes in the value belong to one registry. -/
def Value.BuiltFrom (home : Sealed) (v : Value) : Prop := ∀ m, v.Reaches m → m.home = home

/-! ## Admission

What a type makes of a value, by the form of the value. -/

section

variable {home asked : Sealed} {v w : Value}

/-- A text is admitted for what it says, whether an identifier wraps it or not. -/
theorem FieldType.admits_of_asText? {s : String} (h : v.asText? = some s) (t : FieldType) :
    t.admits asked v =
      match t with
      | .identifier => isIdentifier s
      | .text => true
      | _ => false := by
  cases v with
  | text s' =>
      obtain rfl : s' = s := Option.some.inj h
      cases t <;> rfl
  | identifier i =>
      obtain rfl : i.text = s := Option.some.inj h
      -- the proof inside the identifier is what the check of the text finds out
      cases t <;> simp [admits, admitsScalar, Identifier.admits, Singleton.admits,
        i.isIdentifier_text]
  | _ => simp [Value.asText?] at h

/-- A value that stands for a singleton is admitted by the type of singletons alone. -/
theorem FieldType.admits_of_asSingleton? {s : Singleton} (h : v.asSingleton? = some s)
    (t : FieldType) : t.admits asked v = decide (t = .singleton) := by
  cases v <;> simp [Value.asSingleton?] at h <;>
    cases t <;> simp [admits, admitsScalar, Identifier.admits, Singleton.admits]

/-- **No type tells equal values apart.** -/
theorem FieldType.admits_eq_of_equals (hv : v.BuiltFrom home) (hw : w.BuiltFrom home)
    (h : v.equals w = true) (t : FieldType) : t.admits asked v = t.admits asked w := by
  cases Value.equals_iff.1 h with
  | text hv' hw' => rw [admits_of_asText? hv', admits_of_asText? hw']
  | singleton hv' hw' => rw [admits_of_asSingleton? hv', admits_of_asSingleton? hw']
  | int n => rfl
  | float _ => cases t <;> rfl
  | seq _ => cases t <;> rfl
  | node hnode =>
      have hhome : ∀ m, (Value.node m).BuiltFrom home → m.home = home := fun m hm => hm m (.here m)
      exact admits_node_eq ((hhome _ hv).trans (hhome _ hw).symm) (Node.equals_iff.1 hnode).1 t

theorem FieldSpec.admits_eq_of_equals (hv : v.BuiltFrom home) (hw : w.BuiltFrom home)
    (h : v.equals w = true) (f : FieldSpec) : f.admits asked v = f.admits asked w := by
  simp only [FieldSpec.admits, FieldType.admits_eq_of_equals hv hw h]

/-- Of two equal values both are sequences, of elements equal place by place, or neither is. -/
theorem Value.seq_or_of_equals (h : v.equals w = true) :
    (∃ vs ws, v = .seq vs ∧ w = .seq ws ∧ List.Forall₂ (fun v w => v.equals w = true) vs ws) ∨
      v.isSeq = false ∧ w.isSeq = false := by
  cases Value.equals_iff.1 h with
  | text hv hw => cases v <;> cases w <;> simp_all [asText?, isSeq]
  | singleton hv hw => cases v <;> cases w <;> simp_all [asSingleton?, isSeq]
  | int n => exact Or.inr ⟨rfl, rfl⟩
  | float _ => exact Or.inr ⟨rfl, rfl⟩
  | seq hitems => exact Or.inl ⟨_, _, rfl, rfl, Value.listEquals_iff.1 hitems⟩
  | node _ => exact Or.inr ⟨rfl, rfl⟩

theorem Value.isSeq_eq_of_equals (h : v.equals w = true) : v.isSeq = w.isSeq := by
  rcases Value.seq_or_of_equals h with ⟨vs, ws, rfl, rfl, -⟩ | ⟨hv, hw⟩
  · rfl
  · rw [hv, hw]

theorem Value.BuiltFrom.of_mem {vs : List Value} (h : (seq vs).BuiltFrom home) :
    ∀ v ∈ vs, v.BuiltFrom home :=
  fun _ hv m hm => h m (.element hv hm)

theorem Node.takesElement_eq_of_equals (asked : Sealed) (hv : v.BuiltFrom home) (hw : w.BuiltFrom home)
    (h : v.equals w = true) (f : FieldSpec) :
    takesElement asked f v = takesElement asked f w := by
  rw [takesElement, takesElement, Value.isSeq_eq_of_equals h,
    FieldSpec.admits_eq_of_equals hv hw h]

end

/-! ## Answers that are alike -/

/-- Two errors are the same but for the text of a refused value. -/
inductive TreeError.Alike : TreeError → TreeError → Prop
  | same (e : TreeError) : Alike e e
  | refused (kind field value value' : String) (reason : Mismatch) :
      Alike (.wrongType ⟨kind, field, value, reason⟩) (.wrongType ⟨kind, field, value', reason⟩)

/-- Two answers are related results or like errors. -/
inductive AnswersAlike {α β : Type} (R : α → β → Prop) :
    Except TreeError α → Except TreeError β → Prop
  | ok {a : α} {b : β} : R a b → AnswersAlike R (.ok a) (.ok b)
  | error {e e' : TreeError} : e.Alike e' → AnswersAlike R (.error e) (.error e')

namespace AnswersAlike

variable {α α' β β' : Type} {R : α → β → Prop} {S : α' → β' → Prop}

theorem map {x : Except TreeError α} {y : Except TreeError β} {f : α → α'} {g : β → β'}
    (h : AnswersAlike R x y) (hfg : ∀ a b, R a b → S (f a) (g b)) :
    AnswersAlike S (x.map f) (y.map g) := by
  cases h with
  | ok hab => exact .ok (hfg _ _ hab)
  | error he => exact .error he

/-- One verdict on both sides gives answers that are alike. -/
theorem ite {b b' : Bool} (hb : b = b') {x x' : Except TreeError α} {y y' : Except TreeError β}
    (hx : b = true → AnswersAlike R x y) (hx' : b = false → AnswersAlike R x' y') :
    AnswersAlike R (if b then x else x') (if b' then y else y') := by
  subst hb
  cases b with
  | true => exact hx rfl
  | false => exact hx' rfl

end AnswersAlike

/-- Equal slots are equal after equal elements have been appended to them. -/
theorem Slot.append_equals {s t : Slot} {v w : Value} (hst : s.equals t = true)
    (hvw : v.equals w = true) : (s.append v).equals (t.append w) = true := by
  cases Slot.equals_iff.1 hst with
  | unset | single _ => exact hst
  | many hitems =>
      have hold := Value.listEquals_iff.1 hitems
      exact Slot.equals_iff.2 (.many (Value.listEquals_iff.2 (List.rel_append hold (.cons hvw .nil))))

namespace Node

variable {home : Sealed} {n m : Node} {f : FieldSpec} {v w : Value} {i : Nat}

theorem refusal_alike (hkind : n.kind = m.kind) (f : FieldSpec) (v w : Value) (reason : Mismatch) :
    (n.refusal f v reason).Alike (m.refusal f w reason) := by
  rw [refusal, refusal, hkind]
  exact .refused _ _ _ _ _

/-! ## Nodes that are equal -/

/-- Two sound nodes of one registry and one kind follow one schema. -/
theorem Sound.schema_eq (hn : n.Sound) (hm : m.Sound) (hhome : n.home = m.home)
    (hkind : n.kind = m.kind) : n.schema = m.schema := by
  have h := hn.schema_known
  rw [hhome, hkind, hm.schema_known] at h
  exact (Option.some.inj h).symm

theorem slotAt_equals (h : n.equals m = true) (i : Nat) :
    (n.slotAt i).equals (m.slotAt i) = true :=
  (Slot.listEquals_iff.1 (equals_iff.1 h).2).getD (Slot.equals_iff.2 .unset) i

theorem putSlot_equals (h : n.equals m = true) {s t : Slot} (hst : s.equals t = true) (i : Nat) :
    (n.putSlot i s).equals (m.putSlot i t) = true := by
  obtain ⟨hkind, hslots⟩ := equals_iff.1 h
  refine equals_iff.2 ⟨hkind, Slot.listEquals_iff.2 ?_⟩
  exact (Slot.listEquals_iff.1 hslots).set hst i

theorem elementsAt_equals (h : n.equals m = true) (i : Nat) :
    List.Forall₂ (fun v w => v.equals w = true) (n.elementsAt i) (m.elementsAt i) := by
  have hslot := Slot.equals_iff.1 (slotAt_equals h i)
  unfold elementsAt
  generalize n.slotAt i = s at hslot ⊢
  generalize m.slotAt i = t at hslot ⊢
  cases hslot with
  | unset => exact .nil
  | single _ => exact .nil
  | many hitems => exact Value.listEquals_iff.1 hitems

/-! ## Writes -/

/-- The first refused elements of equal sequences stand at one place. -/
theorem firstRefused?_rel (asked : Sealed) (f : FieldSpec) {vs ws : List Value}
    (hv : ∀ v ∈ vs, v.BuiltFrom home) (hw : ∀ w ∈ ws, w.BuiltFrom home)
    (h : List.Forall₂ (fun v w => v.equals w = true) vs ws) :
    Option.Rel (fun p q => p.2 = q.2) (firstRefused? asked f vs) (firstRefused? asked f ws) := by
  have hfrom : ∀ i, Option.Rel (fun p q => p.2 = q.2)
      ((vs.zipIdx i).find? fun p => !takesElement asked f p.1)
      ((ws.zipIdx i).find? fun p => !takesElement asked f p.1) := by
    induction h with
    | nil => exact fun i => .none
    | cons hhead _ ih =>
        rw [List.forall_mem_cons] at hv hw
        intro i
        have htakes := takesElement_eq_of_equals asked hv.1 hw.1 hhead f
        simp only [List.zipIdx_cons, List.find?_cons, htakes]
        split
        · exact .some rfl
        · exact ih hv.2 hw.2 (i + 1)
  exact hfrom 0

/-- A field makes of equal values slots that are equal, or refuses both for one reason. -/
theorem accept_alike (hhome : n.home = m.home) (hkind : n.kind = m.kind) (hv : v.BuiltFrom home)
    (hw : w.BuiltFrom home) (h : v.equals w = true) (f : FieldSpec) :
    AnswersAlike (fun s t => s.equals t = true) (n.accept f v) (m.accept f w) := by
  unfold accept
  refine .ite rfl (fun _ => ?_) fun _ => ?_
  · rcases Value.seq_or_of_equals h with ⟨vs, ws, rfl, rfl, hitems⟩ | ⟨hv', hw'⟩
    · have hfirst := firstRefused?_rel m.home f hv.of_mem hw.of_mem hitems
      rw [hhome]
      cases hn : firstRefused? m.home f vs <;> cases hm : firstRefused? m.home f ws <;>
        rw [hn, hm] at hfirst
      · simp only [hn, hm]
        exact .ok (Slot.equals_iff.2 (.many (Value.listEquals_iff.2 hitems)))
      · cases hfirst
      · cases hfirst
      · obtain ⟨hplace⟩ := hfirst
        simp only [hn, hm, hplace]
        exact .error (refusal_alike hkind _ _ _ _)
    · cases v <;> cases w <;>
        first
        | exact .error (refusal_alike hkind _ _ _ _)
        | simp [Value.isSeq] at hv' hw'
  · refine .ite (Value.isSeq_eq_of_equals h) (fun _ => .error (refusal_alike hkind _ _ _ _)) fun _ => ?_
    rw [hhome]
    refine .ite (FieldSpec.admits_eq_of_equals hv hw h f) (fun _ => ?_) fun _ => ?_
    · exact .ok (Slot.equals_iff.2 (.single h))
    · exact .error (refusal_alike hkind _ _ _ _)

theorem locate_eq_of_schema_eq (hschema : n.schema = m.schema) (field : String) :
    n.locate field = m.locate field := by
  rw [locate, locate, kind, kind, hschema]

theorem set_alike (heq : n.equals m = true) (hhome : n.home = m.home) (hschema : n.schema = m.schema)
    (hv : v.BuiltFrom home) (hw : w.BuiltFrom home) (h : v.equals w = true) (field : String) :
    AnswersAlike (fun n' m' => n'.equals m' = true) (n.set field v) (m.set field w) := by
  rw [set, set, locate_eq_of_schema_eq hschema]
  cases m.locate field with
  | error e => exact .error (.same e)
  | ok p =>
      have haccept := accept_alike hhome (equals_iff.1 heq).1 hv hw h p.1
      exact haccept.map fun s t hst => putSlot_equals heq hst p.2

theorem push_alike (heq : n.equals m = true) (hhome : n.home = m.home)
    (hschema : n.schema = m.schema) (hv : v.BuiltFrom home) (hw : w.BuiltFrom home)
    (h : v.equals w = true) (field : String) :
    AnswersAlike (fun n' m' => n'.equals m' = true) (n.push field v) (m.push field w) := by
  have hkind := (equals_iff.1 heq).1
  rw [push, push, locate_eq_of_schema_eq hschema]
  cases m.locate field with
  | error e => exact .error (.same e)
  | ok p =>
      have hold := elementsAt_equals heq p.2
      refine .ite rfl (fun _ => ?_) fun _ => .error (refusal_alike hkind _ _ _ _)
      rw [hhome]
      refine .ite (takesElement_eq_of_equals m.home hv hw h p.1) (fun _ => ?_) fun _ => ?_
      · exact .ok (putSlot_equals heq (Slot.append_equals (slotAt_equals heq p.2) h) p.2)
      · -- both elements would have come after equally many
        rw [hold.length_eq]
        exact .error (refusal_alike hkind _ _ _ _)

end Node

/-! ## Finishing -/

theorem Multiplicity.isSatisfiedBy_eq_of_equals {s t : Slot} (h : s.equals t = true)
    (m : Multiplicity) : m.isSatisfiedBy s = m.isSatisfiedBy t := by
  cases Slot.equals_iff.1 h with
  | unset => rfl
  | single _ => cases m <;> rfl
  | many hitems => cases Value.listEquals_iff.1 hitems <;> cases m <;> rfl

namespace Node

variable {home : Sealed} {n m : Node}

theorem missing_eq_of_equals (h : n.equals m = true) (hschema : n.schema = m.schema) :
    n.missing = m.missing := by
  have hrow : ∀ (fs : List FieldSpec) {ss ts : List Slot},
      List.Forall₂ (fun s t => s.equals t = true) ss ts →
        ((fs.zip ss).filter fun p => !p.1.multiplicity.isSatisfiedBy p.2).map (fun p => p.1.name)
          = ((fs.zip ts).filter fun p => !p.1.multiplicity.isSatisfiedBy p.2).map
            fun p => p.1.name := by
    intro fs ss ts hst
    induction hst generalizing fs with
    | nil => rfl
    | cons hhead _ ih =>
        cases fs with
        | nil => rfl
        | cons f fs =>
            have hsame := Multiplicity.isSatisfiedBy_eq_of_equals hhead f.multiplicity
            simp only [List.zip_cons_cons, List.filter_cons, hsame]
            split <;> simp [ih fs]
  unfold missing fields
  rw [hschema]
  exact hrow _ (Slot.listEquals_iff.1 (equals_iff.1 h).2)

theorem finalize_eq_of_equals (h : n.equals m = true) (hschema : n.schema = m.schema) :
    n.finalize = m.finalize := by
  rw [finalize, finalize, missing_eq_of_equals h hschema, kind, kind, hschema]

end Node

/-- Of two equal values both are nodes, which are equal, or neither is. -/
theorem Value.node_or_of_equals {v w : Value} (h : v.equals w = true) :
    (∃ n m, v = .node n ∧ w = .node m ∧ n.equals m = true) ∨
      v.asNode? = none ∧ w.asNode? = none := by
  cases Value.equals_iff.1 h with
  | text hv hw => cases v <;> cases w <;> simp_all [asText?, asNode?]
  | singleton hv hw => cases v <;> cases w <;> simp_all [asSingleton?, asNode?]
  | int n => exact Or.inr ⟨rfl, rfl⟩
  | float _ => exact Or.inr ⟨rfl, rfl⟩
  | seq _ => exact Or.inr ⟨rfl, rfl⟩
  | node hnode => exact Or.inl ⟨_, _, rfl, rfl, hnode⟩

/-! Only the children matter when the slots are finished, so equal slots are finished alike as soon as
their children are. -/

theorem Value.finalizeItems_cons_of_not_node {v : Value} (h : v.asNode? = none) (field : String)
    (i : Nat) (vs : List Value) : finalizeItems field i (v :: vs) = finalizeItems field (i + 1) vs := by
  cases v <;> first | rfl | simp [asNode?] at h

theorem Value.finalizeItems_eq_of_equals {vs ws : List Value}
    (h : List.Forall₂ (fun v w => v.equals w = true) vs ws)
    (hchild : ∀ n m, .node n ∈ vs → .node m ∈ ws → n.equals m = true →
      n.finalizeTree = m.finalizeTree) (field : String) (i : Nat) :
    finalizeItems field i vs = finalizeItems field i ws := by
  induction h generalizing i with
  | nil => rfl
  | @cons v w vs ws hhead _ ih =>
      have hrest := ih fun n m hn hm =>
        hchild n m (List.mem_cons_of_mem _ hn) (List.mem_cons_of_mem _ hm)
      rcases Value.node_or_of_equals hhead with ⟨n, m, rfl, rfl, heq⟩ | ⟨hv, hw⟩
      · rw [finalizeItems, finalizeItems, hrest,
          hchild n m List.mem_cons_self List.mem_cons_self heq]
      · rw [finalizeItems_cons_of_not_node hv, finalizeItems_cons_of_not_node hw, hrest]

theorem Slot.finalizeIn_single_of_not_node {v : Value} (h : v.asNode? = none) (field : String) :
    finalizeIn field (.single v) = .ok () := by
  cases v <;> first | rfl | simp [Value.asNode?] at h

theorem Slot.finalizeIn_eq_of_equals {s t : Slot} (h : s.equals t = true)
    (hchild : ∀ n m, .node n ∈ s.values → .node m ∈ t.values → n.equals m = true →
      n.finalizeTree = m.finalizeTree) (field : String) :
    finalizeIn field s = finalizeIn field t := by
  cases Slot.equals_iff.1 h with
  | unset => rfl
  | single hvalue =>
      rcases Value.node_or_of_equals hvalue with ⟨n, m, rfl, rfl, heq⟩ | ⟨hv, hw⟩
      · rw [finalizeIn, finalizeIn,
          hchild n m (List.mem_singleton_self _) (List.mem_singleton_self _) heq]
      · rw [finalizeIn_single_of_not_node hv, finalizeIn_single_of_not_node hw]
  | many hitems =>
      rw [finalizeIn, finalizeIn]
      exact Value.finalizeItems_eq_of_equals (Value.listEquals_iff.1 hitems) hchild field 0

theorem Slot.finalizeFields_eq_of_equals {ss ts : List Slot}
    (h : List.Forall₂ (fun s t => s.equals t = true) ss ts)
    (hchild : ∀ s ∈ ss, ∀ t ∈ ts, ∀ n m, .node n ∈ s.values → .node m ∈ t.values →
      n.equals m = true → n.finalizeTree = m.finalizeTree) (fs : List FieldSpec) :
    finalizeFields fs ss = finalizeFields fs ts := by
  induction h generalizing fs with
  | nil => rfl
  | @cons s t ss ts hhead _ ih =>
      cases fs with
      | nil => rfl
      | cons f fs =>
          have hrest := ih fun s hs t ht =>
            hchild s (List.mem_cons_of_mem _ hs) t (List.mem_cons_of_mem _ ht)
          have hfield := finalizeIn_eq_of_equals hhead
            (hchild s List.mem_cons_self t List.mem_cons_self) f.name
          rw [finalizeFields, finalizeFields, hfield, hrest]

/-- All nodes in the value are sound and belong to one registry. -/
def Value.Belongs (home : Sealed) (v : Value) : Prop :=
  ∀ m, v.Reaches m → m.Sound ∧ m.home = home

theorem Value.Belongs.of_mem_slots {home : Sealed} {n : Node} (h : (Value.node n).Belongs home)
    {s : Slot} (hs : s ∈ n.slots) {v : Value} (hv : v ∈ s.values) : v.Belongs home :=
  fun m hm => h m (.slot hs hv hm)

theorem Node.Reachable.belongs {n : Node} (h : n.Reachable) : (Value.node n).Belongs n.home := by
  intro m hm
  refine ⟨h.deeplySound m hm, ?_⟩
  rcases Value.reaches_node_iff.1 hm with rfl | hm
  · rfl
  · exact h.deeplySound.home_eq hm

namespace Node

variable {home : Sealed} {n m : Node}

theorem schema_eq_of_belongs (hn : (Value.node n).Belongs home) (hm : (Value.node m).Belongs home)
    (hkind : n.kind = m.kind) : n.schema = m.schema := by
  obtain ⟨hnsound, hnhome⟩ := hn n (.here n)
  obtain ⟨hmsound, hmhome⟩ := hm m (.here m)
  exact hnsound.schema_eq hmsound (hnhome.trans hmhome.symm) hkind

theorem finalizeTree_eq_finalizeFields (n : Node) :
    n.finalizeTree =
      match n.finalize with
      | .error e => .error e
      | .ok () => Slot.finalizeFields n.schema.fields n.slots := by
  obtain ⟨home, schema, slots⟩ := n
  rw [finalizeTree]
  rfl

/-- Equal trees of one registry are finished alike. -/
theorem finalizeTree_eq_of_equals (n m : Node) (h : n.equals m = true)
    (hn : (Value.node n).Belongs home) (hm : (Value.node m).Belongs home) :
    n.finalizeTree = m.finalizeTree := by
  obtain ⟨hkind, hslots⟩ := equals_iff.1 h
  have hschema := schema_eq_of_belongs hn hm hkind
  have hfields : Slot.finalizeFields n.schema.fields n.slots
      = Slot.finalizeFields m.schema.fields m.slots := by
    rw [hschema]
    refine Slot.finalizeFields_eq_of_equals (Slot.listEquals_iff.1 hslots) ?_ _
    intro s hs t ht c d hc hd hcd
    exact finalizeTree_eq_of_equals c d hcd (hn.of_mem_slots hs hc) (hm.of_mem_slots ht hd)
  rw [finalizeTree_eq_finalizeFields, finalizeTree_eq_finalizeFields,
    finalize_eq_of_equals h hschema, hfields]
termination_by sizeOf n
decreasing_by
  have hchild := sizeOf_lt_of_mem_slots hs hc
  simp at hchild
  omega

end Node

/-- **Equal values are interchangeable.**  Take values whose nodes all belong to one registry.  No type
and no field tells equal ones apart.  Written to equal nodes that a run can show, by set or by push, they
are accepted in both places, and leave equal nodes, or are refused in both, with errors that differ at
most in how they spell the refused value.  Such nodes are finished alike, alone and as trees. -/
theorem Value.interchangeable_of_equals (home : Sealed) :
    (∀ v w : Value, v.BuiltFrom home → w.BuiltFrom home → v.equals w = true →
      (∀ (asked : Sealed) (t : FieldType), t.admits asked v = t.admits asked w) ∧
      (∀ (asked : Sealed) (f : FieldSpec), f.admits asked v = f.admits asked w) ∧
      ∀ n m : Node, n.Reachable → m.Reachable → n.home = home → m.home = home → n.equals m = true →
        ∀ field : String,
          AnswersAlike (fun n' m' => n'.equals m' = true) (n.set field v) (m.set field w) ∧
          AnswersAlike (fun n' m' => n'.equals m' = true) (n.push field v) (m.push field w)) ∧
    ∀ n m : Node, n.Reachable → m.Reachable → n.home = home → m.home = home → n.equals m = true →
      n.finalize = m.finalize ∧ n.finalizeTree = m.finalizeTree := by
  have hschema : ∀ n m : Node, n.Reachable → m.Reachable → n.home = home → m.home = home →
      n.equals m = true → n.schema = m.schema := by
    intro n m hn hm hnhome hmhome h
    exact hn.deeplySound.sound.schema_eq hm.deeplySound.sound (hnhome.trans hmhome.symm)
      (Node.equals_iff.1 h).1
  constructor
  · intro v w hv hw h
    refine ⟨fun _ t => t.admits_eq_of_equals hv hw h, fun _ f => f.admits_eq_of_equals hv hw h, ?_⟩
    intro n m hn hm hnhome hmhome hnm field
    have hhome := hnhome.trans hmhome.symm
    have hsame := hschema n m hn hm hnhome hmhome hnm
    exact ⟨Node.set_alike hnm hhome hsame hv hw h field, Node.push_alike hnm hhome hsame hv hw h field⟩
  · intro n m hn hm hnhome hmhome hnm
    refine ⟨Node.finalize_eq_of_equals hnm (hschema n m hn hm hnhome hmhome hnm), ?_⟩
    exact Node.finalizeTree_eq_of_equals n m hnm (hnhome ▸ hn.belongs) (hmhome ▸ hm.belongs)

namespace Scene.Link

/-- The identifier that wraps the name of a link. -/
def wrappedName : Identifier := ⟨"x", by decide⟩

/-- The named link, with its name wrapped. -/
def wrapped : Node := .mk home schema [.unset, .many [], .many [.identifier wrappedName]]

theorem reachable_wrapped : wrapped.Reachable := by
  have hname : made.Supplies (.seq [.identifier wrappedName]) := by
    refine supplies_seq ?_
    simp only [List.mem_singleton, forall_eq]
    intro m hm
    cases hm
  have hwrapped := reached_made.tail
    (.create "wrapped" (n := wrapped)
      (c := .constructWith "link" [("names", .seq [.identifier wrappedName])])
      List.mem_cons_self (by simpa [Creation.values] using hname) rfl)
  exact ⟨_, hwrapped, .of_name "wrapped" rfl⟩

theorem reachable_named : named.Reachable := ⟨made, reached_made, .of_name "named" rfl⟩

end Scene.Link

/-- A name and its wrapped form are pushed alike onto links that bear them. -/
theorem interchangeable_of_equals_named_wrapped :
    (Scene.Link.named.equals Scene.Link.wrapped = true ∧
      (Value.text "x").equals (.identifier Scene.Link.wrappedName) = true) ∧
    AnswersAlike (fun n' m' => n'.equals m' = true) (Scene.Link.named.push "names" (.text "x"))
      (Scene.Link.wrapped.push "names" (.identifier Scene.Link.wrappedName)) ∧
    Scene.Link.named.finalizeTree = Scene.Link.wrapped.finalizeTree := by
  have hnode : Scene.Link.named.equals Scene.Link.wrapped = true := by decide +kernel
  have hvalue : (Value.text "x").equals (.identifier Scene.Link.wrappedName) = true := by
    decide +kernel
  have hscalar : (Value.text "x").BuiltFrom Scene.Link.home ∧
      (Value.identifier Scene.Link.wrappedName).BuiltFrom Scene.Link.home := by
    constructor <;> intro m hm <;> cases hm
  obtain ⟨hwrites, hfinish⟩ := Value.interchangeable_of_equals Scene.Link.home
  refine ⟨⟨hnode, hvalue⟩, ?_, ?_⟩
  · exact ((hwrites _ _ hscalar.1 hscalar.2 hvalue).2.2 _ _ Scene.Link.reachable_named
      Scene.Link.reachable_wrapped rfl rfl hnode "names").2
  · exact (hfinish _ _ Scene.Link.reachable_named Scene.Link.reachable_wrapped rfl rfl hnode).2

end TreeSchema
