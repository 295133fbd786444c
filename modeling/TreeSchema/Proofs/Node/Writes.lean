/-
# TreeSchema.Proofs.Node.Writes — what each operation on a node does when it succeeds.

One statement for each operation: the conditions under which it succeeds, and the node it then
leaves.  Proofs about nodes cite these and do not open the operations.  For the judgement of a value, which
all writes share, the refusals are listed as well.
-/
import TreeSchema.Node
import TreeSchema.Node.Construction

namespace TreeSchema

/-- A value may be stored by itself: it is no sequence, and one of the field's types admits it. -/
def FieldSpec.Takes (home : Sealed) (f : FieldSpec) (v : Value) : Prop :=
  v.isSeq = false ∧ ∃ t ∈ f.types, t.admits home v = true

theorem FieldSpec.admits_iff {home : Sealed} {f : FieldSpec} {v : Value} :
    f.admits home v = true ↔ ∃ t ∈ f.types, t.admits home v = true := by
  simp [FieldSpec.admits]

/-- A field takes a node of its own registry only. -/
theorem FieldSpec.Takes.home_eq {home : Sealed} {f : FieldSpec} {n : Node}
    (h : f.Takes home (.node n)) : n.home = home := by
  obtain ⟨-, t, -, ht⟩ := h
  cases t <;> simp [FieldType.admits, FieldType.admitsScalar, Identifier.admits,
    Singleton.admits] at ht
  exact ht.1

/-- Nodes of one registry and one kind are admitted alike. -/
theorem FieldType.admits_node_eq {asked : Sealed} {n m : Node} (hhome : n.home = m.home)
    (hkind : n.kind = m.kind) (t : FieldType) : t.admits asked (.node n) = t.admits asked (.node m) := by
  cases t <;> simp [admits, admitsScalar, Identifier.admits, Singleton.admits, hhome, hkind]

theorem FieldSpec.admits_node_eq {asked : Sealed} {n m : Node} (hhome : n.home = m.home)
    (hkind : n.kind = m.kind) (f : FieldSpec) : f.admits asked (.node n) = f.admits asked (.node m) := by
  simp only [admits, FieldType.admits_node_eq hhome hkind]

/-! ## Finding a field -/

namespace NodeSchema

variable {s : NodeSchema} {name : String}

/-- At the place of a name stands a field that has it. -/
theorem exists_field_of_position? {i : Nat} (h : s.position? name = some i) :
    ∃ f, s.fields[i]? = some f ∧ f.name = name := by
  obtain ⟨hi, hname, -⟩ := List.findIdx?_eq_some_iff_getElem.1 h
  exact ⟨s.fields[i], List.getElem?_eq_getElem hi, by simpa using hname⟩

/-- A field is located at the place of its name. -/
theorem locate?_eq_some_iff_position? {f : FieldSpec} {i : Nat} :
    s.locate? name = some (f, i) ↔ s.position? name = some i ∧ s.fields[i]? = some f := by
  simp only [locate?, Option.bind_eq_some_iff, Option.map_eq_some_iff, Prod.mk.injEq]
  constructor
  · rintro ⟨j, hposition, g, hg, rfl, rfl⟩
    exact ⟨hposition, hg⟩
  · rintro ⟨hposition, hf⟩
    exact ⟨i, hposition, f, hf, rfl, rfl⟩

/-- A located field stands at its place in the schema and has the name asked for. -/
theorem locate?_eq_some {p : FieldSpec × Nat} (h : s.locate? name = some p) :
    s.fields[p.2]? = some p.1 ∧ p.1.name = name := by
  obtain ⟨hposition, hf⟩ := locate?_eq_some_iff_position?.1 h
  obtain ⟨f, hf', hname⟩ := exists_field_of_position? hposition
  obtain rfl : p.1 = f := Option.some.inj (hf.symm.trans hf')
  exact ⟨hf, hname⟩

theorem getElem?_fieldNames {f : FieldSpec} {i : Nat} (h : s.fields[i]? = some f) :
    s.fieldNames[i]? = some f.name := by
  rw [fieldNames, List.getElem?_map, h, Option.map_some]

/-- No field is located exactly if none has the name. -/
theorem locate?_eq_none_iff : s.locate? name = none ↔ name ∉ s.fieldNames := by
  have hposition : s.locate? name = none ↔ s.position? name = none := by
    rw [locate?]
    cases h : s.position? name with
    | none => simp
    | some i =>
        obtain ⟨f, hf, -⟩ := exists_field_of_position? h
        simp [hf]
  rw [hposition]
  simp [position?, fieldNames]

/-- Where no two fields have one name, two places whose fields have one name are one place. -/
theorem place_eq_of_name (hnames : s.fieldNames.Nodup) {f g : FieldSpec} {i j : Nat}
    (hf : s.fields[i]? = some f) (hg : s.fields[j]? = some g) (hname : f.name = g.name) : i = j := by
  have hi : i < s.fieldNames.length :=
    (List.getElem?_eq_some_iff.1 (getElem?_fieldNames hf)).1
  apply (List.getElem?_inj hi hnames).1
  rw [getElem?_fieldNames hf, getElem?_fieldNames hg, hname]

/-- There a field is located wherever it stands. -/
theorem locate?_eq_some_iff (hnames : s.fieldNames.Nodup) {f : FieldSpec} {i : Nat} :
    s.locate? name = some (f, i) ↔ s.fields[i]? = some f ∧ f.name = name := by
  constructor
  · exact locate?_eq_some
  · rintro ⟨hf, rfl⟩
    cases hl : s.locate? f.name with
    | none => exact absurd (List.mem_of_getElem? (getElem?_fieldNames hf)) (locate?_eq_none_iff.1 hl)
    | some p =>
        obtain ⟨hp, hname⟩ := locate?_eq_some hl
        obtain rfl : i = p.2 := place_eq_of_name hnames hf hp hname.symm
        rw [hf] at hp
        rw [Option.some.inj hp]

end NodeSchema

namespace Node

variable {n n' : Node} {f : FieldSpec} {i : Nat} {v : Value} {slot : Slot}

@[simp] theorem home_putSlot (n : Node) (i : Nat) (slot : Slot) :
    (n.putSlot i slot).home = n.home := rfl

@[simp] theorem schema_putSlot (n : Node) (i : Nat) (slot : Slot) :
    (n.putSlot i slot).schema = n.schema := rfl

@[simp] theorem slots_putSlot (n : Node) (i : Nat) (slot : Slot) :
    (n.putSlot i slot).slots = n.slots.set i slot := rfl

/-- After one slot has been replaced, a slot is the new one or was there before. -/
theorem eq_or_getElem?_of_putSlot {j : Nat} {t : Slot} (h : (n.putSlot i slot).slots[j]? = some t) :
    i = j ∧ slot = t ∨ i ≠ j ∧ n.slots[j]? = some t := by
  rw [slots_putSlot, List.getElem?_set] at h
  split at h
  · next hij =>
    split at h
    · exact Or.inl ⟨hij, Option.some.inj h⟩
    · cases h
  · next hij => exact Or.inr ⟨hij, h⟩

/-- A fresh node has in each field what the multiplicity of the field starts from. -/
theorem eq_defaultSlot_of_fresh {home : Sealed} {schema : NodeSchema}
    (hf : (fresh home schema).schema.fields[i]? = some f)
    (hs : (fresh home schema).slots[i]? = some slot) : slot = f.multiplicity.defaultSlot := by
  have hf' : schema.fields[i]? = some f := hf
  have hs' : (schema.fields.map fun f => f.multiplicity.defaultSlot)[i]? = some slot := hs
  rw [List.getElem?_map, hf', Option.map_some] at hs'
  exact (Option.some.inj hs').symm

theorem locate_eq_ok_iff {field : String} {p : FieldSpec × Nat} :
    n.locate field = .ok p ↔ n.schema.locate? field = some p := by
  unfold locate
  cases n.schema.locate? field <;> simp

/-- The field located is the one at the place located. -/
theorem getElem?_of_locate {field : String} {p : FieldSpec × Nat} (h : n.locate field = .ok p) :
    n.schema.fields[p.2]? = some p.1 :=
  (NodeSchema.locate?_eq_some (locate_eq_ok_iff.1 h)).1

/-- Two fields of different names stand at two places. -/
theorem place_ne_of_field_ne {g h : String} {p q : FieldSpec × Nat} (hp : n.locate g = .ok p)
    (hq : n.locate h = .ok q) (hgh : g ≠ h) : p.2 ≠ q.2 := by
  intro hsame
  obtain ⟨hpf, hpn⟩ := NodeSchema.locate?_eq_some (locate_eq_ok_iff.1 hp)
  obtain ⟨hqf, hqn⟩ := NodeSchema.locate?_eq_some (locate_eq_ok_iff.1 hq)
  rw [hsame, hqf] at hpf
  exact hgh (hpn.symm.trans ((Option.some.inj hpf) ▸ hqn))

theorem get_eq_ok_iff {field : String} :
    n.get field = .ok slot ↔ ∃ p, n.locate field = .ok p ∧ slot = n.slotAt p.2 := by
  unfold get
  cases n.locate field <;> simp [Except.map, eq_comm]

theorem takesElement_iff {home : Sealed} :
    takesElement home f v = true ↔ f.Takes home v := by
  simp [takesElement, FieldSpec.Takes, FieldSpec.admits_iff]

theorem firstRefused?_eq_none_iff {home : Sealed} {items : List Value} :
    firstRefused? home f items = none ↔ ∀ w ∈ items, f.Takes home w := by
  simp only [firstRefused?, List.find?_eq_none, Bool.not_eq_true', Bool.not_eq_false,
    takesElement_iff]
  constructor
  · intro h w hw
    obtain ⟨j, hj⟩ := List.mem_iff_getElem?.1 hw
    exact h (w, j) (List.mem_zipIdx_iff_getElem?.2 hj)
  · intro h p hp
    exact h p.1 (List.mem_of_getElem? (List.mem_zipIdx_iff_getElem?.1 hp))

/-- A single-valued field accepts one value that it takes, a sequence field a sequence of such. -/
theorem accept_eq_ok_iff :
    n.accept f v = .ok slot ↔
      (f.multiplicity.isSequence = false ∧ f.Takes n.home v ∧ slot = .single v) ∨
        f.multiplicity.isSequence = true ∧
          ∃ items, v = .seq items ∧ (∀ w ∈ items, f.Takes n.home w) ∧ slot = .many items := by
  unfold accept
  cases hm : f.multiplicity.isSequence with
  | true =>
      simp only [if_true, Bool.true_eq_false, false_and, false_or, true_and]
      cases v with
      | seq items =>
          cases hr : firstRefused? n.home f items with
          | none =>
              have htakes := firstRefused?_eq_none_iff.1 hr
              simp only [hr, Except.ok.injEq]
              constructor
              · rintro rfl
                exact ⟨items, rfl, htakes, rfl⟩
              · rintro ⟨_, hsame, -, rfl⟩
                rw [Value.seq.inj hsame]
          | some p =>
              refine iff_of_false (by simp [hr]) ?_
              rintro ⟨_, hsame, htakes, -⟩
              rw [← Value.seq.inj hsame, ← firstRefused?_eq_none_iff, hr] at htakes
              exact absurd htakes (by simp)
      | _ => simp
  | false =>
      simp only [Bool.false_eq_true, if_false, true_and, false_and, or_false, FieldSpec.Takes,
        ← FieldSpec.admits_iff]
      cases hs : v.isSeq <;> cases ha : f.admits n.home v <;> simp [eq_comm]

end Node

/-! ### What a field makes of a value -/

/-- What a field holds once a value is written into it. -/
def Value.asSlot : Value → Slot
  | seq items => .many items
  | v => .single v

/-- The value fits the field: a single-valued field takes it, or it is a sequence and a sequence field takes
each of its elements. -/
def FieldSpec.Accepts (home : Sealed) (f : FieldSpec) (v : Value) : Prop :=
  match f.multiplicity with
  | .needed | .optional => f.Takes home v
  | .zeroOrMore | .oneOrMore => ∃ items, v = .seq items ∧ ∀ w ∈ items, f.Takes home w

/-- Why a field in nodes of a kind refuses a value.  A single-valued field takes no sequence, nor what none of
its types admits; a sequence field takes nothing but a sequence, and refuses one for the first element that
it does not take. -/
inductive FieldSpec.Refuses (home : Sealed) (kind : String) (f : FieldSpec) :
    Value → TreeError → Prop
  | sequence (items : List Value) : f.multiplicity.isSequence = false →
      Refuses home kind f (.seq items)
        (.wrongType ⟨kind, f.name, (Value.seq items).render, .expectedSingle⟩)
  | type {v : Value} : f.multiplicity.isSequence = false → v.isSeq = false →
      (∀ t ∈ f.types, t.admits home v = false) →
        Refuses home kind f v (.wrongType ⟨kind, f.name, v.render, .notAdmitted f.typeNames⟩)
  | single {v : Value} : f.multiplicity.isSequence = true → v.isSeq = false →
      Refuses home kind f v (.wrongType ⟨kind, f.name, v.render, .expectedSequence⟩)
  | element {before : List Value} {x : Value} (rest : List Value) :
      f.multiplicity.isSequence = true → (∀ w ∈ before, f.Takes home w) → ¬ f.Takes home x →
        Refuses home kind f (.seq (before ++ x :: rest))
          (.wrongType ⟨kind, f.name, x.render, .elementNotAdmitted before.length f.typeNames⟩)

namespace FieldSpec

variable {home : Sealed} {f : FieldSpec} {v : Value}

theorem accepts_iff_of_single (h : f.multiplicity.isSequence = false) :
    f.Accepts home v ↔ f.Takes home v := by
  unfold Accepts
  cases hm : f.multiplicity <;> simp [hm, Multiplicity.isSequence] at h <;> exact Iff.rfl

theorem accepts_iff_of_sequence (h : f.multiplicity.isSequence = true) :
    f.Accepts home v ↔ ∃ items, v = .seq items ∧ ∀ w ∈ items, f.Takes home w := by
  unfold Accepts
  cases hm : f.multiplicity <;> simp [hm, Multiplicity.isSequence] at h <;> exact Iff.rfl

/-- Either a field takes all elements of a list, or there is a first that it refuses. -/
theorem takes_all_or_first_refused (home : Sealed) (f : FieldSpec) (xs : List Value) :
    (∀ v ∈ xs, f.Takes home v) ∨
      ∃ before x rest, xs = before ++ x :: rest ∧ (∀ v ∈ before, f.Takes home v) ∧
        ¬ f.Takes home x := by
  cases hfind : xs.find? fun v => !Node.takesElement home f v with
  | none =>
      rw [List.find?_eq_none] at hfind
      exact Or.inl fun v hv => Node.takesElement_iff.1 (by simpa using hfind v hv)
  | some x =>
      obtain ⟨hx, before, rest, hxs, hbefore⟩ := List.find?_eq_some_iff_append.1 hfind
      refine Or.inr ⟨before, x, rest, hxs, ?_, ?_⟩
      · exact fun v hv => Node.takesElement_iff.1 (by simpa using hbefore v hv)
      · rw [← Node.takesElement_iff]
        simpa using hx

/-- A value fits the field, or the field refuses it for a reason. -/
theorem accepts_or_refuses (f : FieldSpec) (home : Sealed) (kind : String) (v : Value) :
    f.Accepts home v ∨ ∃ e, f.Refuses home kind v e := by
  cases hm : f.multiplicity.isSequence with
  | false =>
      rw [accepts_iff_of_single hm]
      cases hv : v.isSeq with
      | true =>
          cases v with
          | seq items => exact Or.inr ⟨_, .sequence items hm⟩
          | _ => simp [Value.isSeq] at hv
      | false =>
          by_cases ht : ∃ t ∈ f.types, t.admits home v = true
          · exact Or.inl ⟨hv, ht⟩
          · exact Or.inr ⟨_, .type hm hv (by simpa using ht)⟩
  | true =>
      rw [accepts_iff_of_sequence hm]
      cases v with
      | seq items =>
          rcases f.takes_all_or_first_refused home items with
            hall | ⟨before, x, rest, rfl, hbefore, hx⟩
          · exact Or.inl ⟨items, rfl, hall⟩
          · exact Or.inr ⟨_, .element rest hm hbefore hx⟩
      | _ => exact Or.inr ⟨_, .single hm rfl⟩

end FieldSpec

namespace Node

variable {n n' : Node} {f : FieldSpec} {v : Value} {slot : Slot} {e : TreeError}

/-- The first element that a field refuses, after elements that it takes. -/
theorem firstRefused?_append {home : Sealed} {items : List Value} {x : Value}
    (hitems : ∀ v ∈ items, f.Takes home v) (hx : ¬ f.Takes home x) (rest : List Value) :
    firstRefused? home f (items ++ x :: rest) = some (x, items.length) := by
  have hnone : (items.zipIdx.find? fun p => !takesElement home f p.1) = none :=
    firstRefused?_eq_none_iff.2 hitems
  have hrefused : (!takesElement home f x) = true := by
    simpa [← takesElement_iff] using hx
  rw [firstRefused?, List.zipIdx_append, List.find?_append, hnone, Option.none_or, List.zipIdx_cons,
    Nat.zero_add]
  exact List.find?_cons_of_pos hrefused

/-- What fits the field is accepted, and the field then holds it as it is. -/
theorem accept_eq_ok_iff_accepts :
    n.accept f v = .ok slot ↔ f.Accepts n.home v ∧ slot = v.asSlot := by
  rw [accept_eq_ok_iff]
  cases hm : f.multiplicity.isSequence with
  | false =>
      rw [FieldSpec.accepts_iff_of_single hm]
      simp only [true_and, Bool.false_eq_true, false_and, or_false]
      refine and_congr_right fun ht => ?_
      cases v with
      | seq items => exact absurd ht.1 (by simp [Value.isSeq])
      | _ => rfl
  | true =>
      rw [FieldSpec.accepts_iff_of_sequence hm]
      simp only [Bool.true_eq_false, false_and, true_and, false_or]
      constructor
      · rintro ⟨items, rfl, htaken, rfl⟩
        exact ⟨⟨items, rfl, htaken⟩, rfl⟩
      · rintro ⟨⟨items, rfl, htaken⟩, rfl⟩
        exact ⟨items, rfl, htaken, rfl⟩

theorem accept_of_refuses (h : f.Refuses n.home n.kind v e) : n.accept f v = .error e := by
  cases h with
  | sequence items hm => simp [accept, hm, Value.isSeq, refusal]
  | type hm hv htypes =>
      have hadmits : f.admits n.home v = false := by simpa [FieldSpec.admits] using htypes
      simp [accept, hm, hv, hadmits, refusal]
  | single hm hv =>
      cases v with
      | seq items => simp [Value.isSeq] at hv
      | _ => simp [accept, hm, refusal]
  | element rest hm hbefore hx =>
      simp [accept, hm, firstRefused?_append hbefore hx rest, refusal]

/-- **A value is refused for the reasons listed and for no other.** -/
theorem accept_eq_error_iff : n.accept f v = .error e ↔ f.Refuses n.home n.kind v e := by
  constructor
  · intro h
    rcases f.accepts_or_refuses n.home n.kind v with haccepts | ⟨e', hrefuses⟩
    · rw [accept_eq_ok_iff_accepts.2 ⟨haccepts, rfl⟩] at h
      simp at h
    · rw [accept_of_refuses hrefuses] at h
      obtain rfl := Except.error.inj h
      exact hrefuses
  · exact accept_of_refuses

/-! ## Operations -/

theorem write_eq_ok_iff {p : FieldSpec × Nat} :
    n.write p v = .ok n' ↔ ∃ slot, n.accept p.1 v = .ok slot ∧ n' = n.putSlot p.2 slot := by
  unfold write
  cases n.accept p.1 v <;> simp [Except.map, eq_comm]

theorem set_eq_ok_iff {field : String} :
    n.set field v = .ok n' ↔ ∃ p, n.locate field = .ok p ∧ n.write p v = .ok n' := by
  unfold set
  cases n.locate field <;> simp

theorem push_eq_ok_iff {field : String} :
    n.push field v = .ok n' ↔
      ∃ f i, n.locate field = .ok (f, i) ∧ f.multiplicity.isSequence = true ∧
        f.Takes n.home v ∧ n' = n.putSlot i ((n.slotAt i).append v) := by
  unfold push
  cases hl : n.locate field with
  | error e => simp
  | ok p =>
      obtain ⟨f, i⟩ := p
      simp only [Except.ok.injEq, Prod.mk.injEq, ← takesElement_iff]
      cases hm : f.multiplicity.isSequence <;> cases ht : takesElement n.home f v <;>
        grind

theorem clear_eq_ok_iff {field : String} :
    n.clear field = .ok n' ↔
      ∃ p, n.locate field = .ok p ∧ n' = n.putSlot p.2 p.1.multiplicity.defaultSlot := by
  unfold clear
  cases n.locate field <;> simp [Except.map, eq_comm]

/-- An edit of a child succeeds when the child it leaves is admitted, or there is no child. -/
theorem editChild_eq_ok_iff {α : Type} {field : String} {edit : Node → α × Node}
    {answer : Option α} :
    n.editChild field edit = .ok (answer, n') ↔
      ∃ f i, n.locate field = .ok (f, i) ∧
        ((∃ child, n.slotAt i = .single (.node child) ∧
            f.admits n.home (.node (edit child).2) = true ∧ answer = some (edit child).1 ∧
              n' = n.putSlot i (.single (.node (edit child).2))) ∨
          (∀ child, n.slotAt i ≠ .single (.node child)) ∧ answer = none ∧ n' = n) := by
  unfold editChild
  cases hl : n.locate field with
  | error e => simp
  | ok p =>
      obtain ⟨f, i⟩ := p
      simp only [Except.ok.injEq, Prod.mk.injEq]
      cases hs : n.slotAt i with
      | single w =>
          cases w with
          | node child =>
              cases ha : f.admits n.home (.node (edit child).2) <;> grind
          | _ => grind
      | _ => grind

end Node

end TreeSchema
