/-
# TreeSchema.Proofs.Value.PartialEquivalence — equality is a partial equivalence, and NaN alone is left out.

Equality groups texts with identifiers and booleans with singletons before it looks at constructors,
compares sequences and slots place by place, and goes down into nodes whatever registries they belong
to.  It is the same in both directions and is passed on along chains.  It is not reflexive: a NaN differs
from itself, and so does whatever holds one at any depth.  There is no other exception.

The laws are said of one thing at a time (`LawfulAt`), so that a value has them as soon as its parts
have them.  A constructor that equality looks through hands them on, and so does a list.
-/
import TreeSchema.Proofs.Node.Containment
import TreeSchema.Proofs.Value.Equality

namespace TreeSchema

/-! ## Comparisons that keep the laws -/

/-- What a comparison owes to one thing: whatever the thing is equal to is equal to it and passes the
equality on, and the thing is equal to itself exactly when it is `whole`. -/
structure LawfulAt {α : Type} (eq : α → α → Bool) (whole : α → Prop) (a : α) : Prop where
  symm : ∀ b, eq a b = true → eq b a = true
  trans : ∀ b c, eq a b = true → eq b c = true → eq a c = true
  self_iff : eq a a = true ↔ whole a

namespace LawfulAt

variable {α β : Type} {eq : α → α → Bool} {whole : α → Prop}

/-- The laws hold in a class whose members are equal to all members and to nothing else. -/
theorem of_class {C : α → Prop} (hC : ∀ a, C a → ∀ b, eq a b = true ↔ C b) {a : α} (ha : C a)
    (hwhole : whole a) : LawfulAt eq whole a := by
  constructor
  · intro b hb
    have hbC : C b := (hC a ha b).1 hb
    exact (hC b hbC a).2 ha
  · intro b c hb hc
    have hbC : C b := (hC a ha b).1 hb
    have hcC : C c := (hC b hbC c).1 hc
    exact (hC a ha c).2 hcC
  · exact iff_of_true ((hC a ha a).2 ha) hwhole

/-- A comparison that looks through a constructor has the laws of the comparison inside. -/
theorem wrap {eq' : β → β → Bool} {whole' : β → Prop} {mk : α → β} (hmk : Function.Injective mk)
    (hiff : ∀ a b, eq' (mk a) b = true ↔ ∃ a', b = mk a' ∧ eq a a' = true) {a : α}
    (hwhole : whole' (mk a) ↔ whole a) (h : LawfulAt eq whole a) : LawfulAt eq' whole' (mk a) := by
  constructor
  · intro b hb
    obtain ⟨a', rfl, ha'⟩ := (hiff a b).1 hb
    exact (hiff a' _).2 ⟨a, rfl, h.symm a' ha'⟩
  · intro b c hb hc
    obtain ⟨a', rfl, ha'⟩ := (hiff a b).1 hb
    obtain ⟨a'', rfl, ha''⟩ := (hiff a' c).1 hc
    exact (hiff a _).2 ⟨a'', rfl, h.trans a' a'' ha' ha''⟩
  · rw [hiff, hwhole, ← h.self_iff]
    constructor
    · rintro ⟨a', hsame, ha'⟩
      rwa [← hmk hsame] at ha'
    · exact fun ha => ⟨a, rfl, ha⟩

/-- A comparison element by element has the laws of the comparison of elements. -/
theorem list {listEq : List α → List α → Bool}
    (hlist : ∀ as bs, listEq as bs = true ↔ List.Forall₂ (fun a b => eq a b = true) as bs)
    {as : List α} (h : ∀ a ∈ as, LawfulAt eq whole a) :
    LawfulAt listEq (fun as => ∀ a ∈ as, whole a) as := by
  constructor
  · intro bs hbs
    have hlawful := (List.forall₂_and_left as bs).2 ⟨h, (hlist as bs).1 hbs⟩
    have hturned : List.Forall₂ (fun a b => eq b a = true) as bs :=
      hlawful.imp fun a b hab => hab.1.symm b hab.2
    exact (hlist bs as).2 hturned.flip
  · intro bs cs hbs hcs
    rw [hlist] at hbs hcs ⊢
    induction hbs generalizing cs with
    | nil => exact hcs
    | @cons a b as bs hab _ ih =>
        rw [List.forall_mem_cons] at h
        obtain ⟨c, cs, hbc, hrest, rfl⟩ := List.forall₂_cons_left_iff.1 hcs
        exact .cons (h.1.trans b c hab hbc) (ih h.2 cs hrest)
  · rw [hlist, List.forall₂_same]
    exact forall₂_congr fun a ha => (h a ha).self_iff

end LawfulAt

/-! ## Numbers -/

namespace Decimal.Binary64

theorem equals_iff {x y : Binary64} :
    x.equals y = true ↔ x.isNaN = false ∧ y.isNaN = false ∧
      (x = y ∨ x.isZero = true ∧ y.isZero = true) := by
  have hbits : x.bits = y.bits ↔ x = y := by
    cases x
    cases y
    simp
  simp [equals, and_assoc, hbits]

theorem lawfulAt_equals (x : Binary64) : LawfulAt equals (fun x => x.isNaN = false) x := by
  constructor
  · intro y hxy
    obtain ⟨hx, hy, hsame | ⟨hzero, hzero'⟩⟩ := equals_iff.1 hxy
    · exact equals_iff.2 ⟨hy, hx, Or.inl hsame.symm⟩
    · exact equals_iff.2 ⟨hy, hx, Or.inr ⟨hzero', hzero⟩⟩
  · intro y z hxy hyz
    obtain ⟨hx, -, hsame | ⟨hzero, -⟩⟩ := equals_iff.1 hxy
    · rwa [hsame]
    · obtain ⟨-, hz, hsame' | ⟨-, hzero'⟩⟩ := equals_iff.1 hyz
      · rwa [← hsame']
      · exact equals_iff.2 ⟨hx, hz, Or.inr ⟨hzero, hzero'⟩⟩
  · simp [equals_iff]

end Decimal.Binary64

/-! ## Values without NaN -/

/-- No NaN occurs in the value, at any depth. -/
def Value.NaNFree (v : Value) : Prop := ∀ x, v.Holds (.float x) → x.isNaN = false

/-- No NaN occurs in what the slot holds. -/
def Slot.NaNFree (s : Slot) : Prop := ∀ v ∈ s.values, v.NaNFree

/-- No NaN occurs in what the slots of the node hold. -/
def Node.NaNFree (n : Node) : Prop := ∀ s ∈ n.slots, s.NaNFree

namespace Value

theorem nanFree_iff {v : Value} :
    v.NaNFree ↔ (∀ x, v = .float x → x.isNaN = false) ∧ ∀ p ∈ v.parts, p.NaNFree := by
  unfold NaNFree
  constructor
  · intro h
    refine ⟨fun x hx => h x (holds_iff.2 (Or.inl hx.symm)), ?_⟩
    exact fun p hp x hx => h x (holds_iff.2 (Or.inr ⟨p, hp, hx⟩))
  · rintro ⟨hself, hparts⟩ x hx
    rcases holds_iff.1 hx with hx | ⟨p, hp, hx⟩
    · exact hself x hx.symm
    · exact hparts p hp x hx

theorem nanFree_of_scalar {v : Value} (hparts : v.parts = []) (hfloat : ∀ x, v ≠ .float x) :
    v.NaNFree := by
  refine nanFree_iff.2 ⟨fun x hx => absurd hx (hfloat x), ?_⟩
  simp [hparts]

theorem nanFree_float_iff {x : Decimal.Binary64} : (float x).NaNFree ↔ x.isNaN = false := by
  rw [nanFree_iff]
  simp [parts]

theorem nanFree_seq_iff {items : List Value} : (seq items).NaNFree ↔ ∀ v ∈ items, v.NaNFree := by
  rw [nanFree_iff]
  simp [parts]

theorem nanFree_node_iff {n : Node} : (node n).NaNFree ↔ n.NaNFree := by
  rw [nanFree_iff]
  simp only [reduceCtorEq, false_implies, implies_true, true_and, parts, List.forall_mem_flatMap]
  rfl

end Value

/-! ## The laws, from the parts to the whole -/

theorem Value.lawfulAt_listEquals {vs : List Value} (h : ∀ v ∈ vs, LawfulAt equals NaNFree v) :
    LawfulAt listEquals (fun vs => ∀ v ∈ vs, v.NaNFree) vs :=
  .list (fun _ _ => listEquals_iff) h

theorem Slot.lawfulAt_of_values {s : Slot}
    (h : ∀ v ∈ s.values, LawfulAt Value.equals Value.NaNFree v) : LawfulAt equals NaNFree s := by
  cases s with
  | unset =>
      refine .of_class (C := fun t => t = .unset) ?_ rfl (by simp [NaNFree, values])
      rintro _ rfl t
      exact unset_equals_iff
  | single v =>
      refine .wrap (fun _ _ => Slot.single.inj) (fun _ _ => single_equals_iff) ?_ (h v ?_)
      · simp [NaNFree, values]
      · exact List.mem_singleton_self v
  | many vs =>
      exact .wrap (fun _ _ => Slot.many.inj) (fun _ _ => many_equals_iff) Iff.rfl
        (Value.lawfulAt_listEquals h)

theorem Node.lawfulAt_of_slots {n : Node} (h : ∀ s ∈ n.slots, LawfulAt Slot.equals Slot.NaNFree s) :
    LawfulAt equals NaNFree n := by
  have hslots : LawfulAt Slot.listEquals (fun ss => ∀ s ∈ ss, s.NaNFree) n.slots :=
    .list (fun _ _ => Slot.listEquals_iff) h
  constructor
  · intro m hm
    rw [equals_iff] at hm ⊢
    exact ⟨hm.1.symm, hslots.symm _ hm.2⟩
  · intro m k hm hk
    rw [equals_iff] at hm hk ⊢
    exact ⟨hm.1.trans hk.1, hslots.trans _ _ hm.2 hk.2⟩
  · rw [equals_iff, hslots.self_iff]
    exact and_iff_right rfl

/-- Texts and identifiers are told apart by their texts alone. -/
theorem Value.lawfulAt_of_asText? {v : Value} {s : String} (h : v.asText? = some s) :
    LawfulAt equals NaNFree v := by
  have hfree : v.NaNFree := by
    cases v with
    | text _ | identifier _ => exact nanFree_of_scalar rfl (by simp)
    | _ => simp [asText?] at h
  exact .of_class (C := fun w => w.asText? = some s) (fun _ hu _ => equals_iff_of_asText? hu) h hfree

/-- So are booleans, the null value and singletons by the singletons that they stand for. -/
theorem Value.lawfulAt_of_asSingleton? {v : Value} {s : Singleton} (h : v.asSingleton? = some s) :
    LawfulAt equals NaNFree v := by
  have hfree : v.NaNFree := by
    cases v with
    | null | bool _ | singleton _ => exact nanFree_of_scalar rfl (by simp)
    | _ => simp [asSingleton?] at h
  exact .of_class (C := fun w => w.asSingleton? = some s)
    (fun _ hu _ => equals_iff_of_asSingleton? hu) h hfree

theorem Value.lawfulAt_equals (v : Value) : LawfulAt equals NaNFree v := by
  induction v using parts_induction with
  | step v ih =>
      cases v with
      | null | bool b | singleton s => exact lawfulAt_of_asSingleton? rfl
      | text s | identifier i => exact lawfulAt_of_asText? rfl
      | int n =>
          refine .of_class (C := fun w => w = .int n) ?_ rfl (nanFree_of_scalar rfl (by simp))
          rintro _ rfl w
          exact int_equals_iff
      | float x =>
          exact .wrap (fun _ _ => Value.float.inj) (fun _ _ => float_equals_iff) nanFree_float_iff
            x.lawfulAt_equals
      | seq vs =>
          exact .wrap (fun _ _ => Value.seq.inj) (fun _ _ => seq_equals_iff) nanFree_seq_iff
            (lawfulAt_listEquals ih)
      | node n =>
          refine .wrap (fun _ _ => Value.node.inj) (fun _ _ => node_equals_iff) nanFree_node_iff ?_
          refine Node.lawfulAt_of_slots fun s hs => Slot.lawfulAt_of_values fun v hv => ?_
          exact ih v (List.mem_flatMap.2 ⟨s, hs, hv⟩)

theorem Value.equals_comm {v w : Value} : v.equals w = true ↔ w.equals v = true :=
  ⟨v.lawfulAt_equals.symm w, w.lawfulAt_equals.symm v⟩

/-- **Equality is symmetric and transitive, and exactly what is free of NaN equals itself**, for values,
for slots and for nodes.  Nothing is asked of the values: sequences may be nested to any depth, and nodes
may belong to any registries and follow any schemas. -/
theorem Value.equality_lawful :
    (∀ v : Value, LawfulAt Value.equals Value.NaNFree v) ∧
      (∀ s : Slot, LawfulAt Slot.equals Slot.NaNFree s) ∧
        ∀ n : Node, LawfulAt Node.equals Node.NaNFree n := by
  have hslot : ∀ s : Slot, LawfulAt Slot.equals Slot.NaNFree s :=
    fun s => Slot.lawfulAt_of_values fun v _ => v.lawfulAt_equals
  exact ⟨lawfulAt_equals, hslot, fun n => Node.lawfulAt_of_slots fun s _ => hslot s⟩

/-- A sequence with a name and the one with the wrapped name are equal in both directions, hence each to
itself; a NaN further inside spoils this. -/
theorem Value.equality_lawful_wrapped_name :
    let named := Value.seq [.text "x"]
    let wrapped := Value.seq [.identifier ⟨"x", by decide⟩]
    let spoilt := Value.seq [.text "x", .seq [.float .nan]]
    named.equals wrapped = true ∧ wrapped.equals named = true ∧ wrapped.equals wrapped = true ∧
      spoilt.equals spoilt ≠ true := by
  intro named wrapped spoilt
  have hequal : named.equals wrapped = true := by decide +kernel
  have hturned : wrapped.equals named = true := (equality_lawful.1 named).symm wrapped hequal
  refine ⟨hequal, hturned, (equality_lawful.1 wrapped).trans named wrapped hturned hequal, ?_⟩
  intro hself
  have hnan := (equality_lawful.1 spoilt).self_iff.1 hself .nan
    (.element (List.mem_cons_of_mem _ List.mem_cons_self) (.element List.mem_cons_self (.here _)))
  exact absurd hnan (by decide +kernel)

end TreeSchema
