/-
# TreeSchema.Proofs.Node.Soundness — nodes that hold only what their schema lets them hold.

`Node.Sound` speaks of one node: its schema is the registered one, there is one slot for each field,
and each slot fits its field.  `Node.DeeplySound` asks the same of every node inside.  A fresh node is
deeply sound, and each operation on a node keeps it so when the values it is given are sound.  For the
edit of a child nothing is asked of the edit but that the child it leaves is deeply sound: the field's
own judgement of that child does the rest.

Sound nodes never hold a sequence as a value, and all nodes inside a sound node belong to its registry;
both follow from the slots alone.
-/
import TreeSchema.Proofs.Node.Containment
import TreeSchema.Proofs.Node.Writes
import TreeSchema.Proofs.Registry.Coherence

namespace TreeSchema

/-! ## Slots that fit their field -/

/-- What a field of a node may hold. -/
def Slot.Fits (home : Sealed) (f : FieldSpec) (s : Slot) : Prop :=
  match f.multiplicity with
  | .needed | .optional => s = .unset ∨ ∃ v, s = .single v ∧ f.Takes home v
  | .zeroOrMore | .oneOrMore => ∃ items, s = .many items ∧ ∀ v ∈ items, f.Takes home v

namespace Slot

variable {home : Sealed} {f : FieldSpec} {s : Slot}

theorem fits_iff_of_single (h : f.multiplicity.isSequence = false) :
    s.Fits home f ↔ s = .unset ∨ ∃ v, s = .single v ∧ f.Takes home v := by
  unfold Fits
  cases hm : f.multiplicity <;> simp [hm, Multiplicity.isSequence] at h <;> exact Iff.rfl

theorem fits_iff_of_sequence (h : f.multiplicity.isSequence = true) :
    s.Fits home f ↔ ∃ items, s = .many items ∧ ∀ v ∈ items, f.Takes home v := by
  unfold Fits
  cases hm : f.multiplicity <;> simp [hm, Multiplicity.isSequence] at h <;> exact Iff.rfl

/-- Every value in a slot that fits is one that the field takes. -/
theorem Fits.takes (h : s.Fits home f) : ∀ v ∈ s.values, f.Takes home v := by
  cases hm : f.multiplicity.isSequence with
  | false =>
      rcases (fits_iff_of_single hm).1 h with rfl | ⟨w, rfl, hw⟩
      · simp [values]
      · simpa [values] using hw
  | true =>
      obtain ⟨items, rfl, hitems⟩ := (fits_iff_of_sequence hm).1 h
      exact hitems

theorem fits_defaultSlot (home : Sealed) (f : FieldSpec) :
    f.multiplicity.defaultSlot.Fits home f := by
  cases hm : f.multiplicity.isSequence with
  | false =>
      rw [fits_iff_of_single hm]
      exact Or.inl (by simp [Multiplicity.defaultSlot, hm])
  | true =>
      rw [fits_iff_of_sequence hm]
      exact ⟨[], by simp [Multiplicity.defaultSlot, hm], by simp⟩

/-- A sequence that fits still does with one more element that the field takes. -/
theorem Fits.append (h : s.Fits home f) (hm : f.multiplicity.isSequence = true) {v : Value}
    (hv : f.Takes home v) : (s.append v).Fits home f := by
  rw [fits_iff_of_sequence hm] at h ⊢
  obtain ⟨items, rfl, hitems⟩ := h
  refine ⟨items ++ [v], rfl, ?_⟩
  simpa [or_imp, forall_and] using ⟨hitems, hv⟩

/-- A slot comes to hold nothing but the element. -/
theorem eq_or_mem_of_mem_values_append {v w : Value} (hw : w ∈ (s.append v).values) :
    w = v ∨ w ∈ s.values := by
  cases s with
  | many items => simpa [append, values, or_comm] using hw
  | _ => exact Or.inr hw

theorem values_defaultSlot (m : Multiplicity) : m.defaultSlot.values = [] := by
  cases m <;> rfl

end Slot

/-! ## Sound nodes -/

namespace Node

/-- The node follows the schema that its registry holds for its kind, has one slot for each field, and
each slot fits its field. -/
structure Sound (n : Node) : Prop where
  schema_known : n.home.registry.get? n.kind = some n.schema
  length_slots : n.slots.length = n.schema.fields.length
  fits : ∀ p ∈ n.fields, p.2.Fits n.home p.1

theorem mem_fields_iff {n : Node} {f : FieldSpec} {s : Slot} :
    (f, s) ∈ n.fields ↔
      ∃ i : Nat, n.schema.fields[i]? = some f ∧ n.slots[i]? = some s := by
  simp only [fields, List.mem_iff_getElem?, List.getElem?_zip_eq_some]

namespace Sound

variable {n : Node} {f : FieldSpec} {s : Slot} {i : Nat}

/-- Each field has its slot. -/
theorem exists_slot (h : n.Sound) (hf : n.schema.fields[i]? = some f) :
    ∃ s, n.slots[i]? = some s ∧ s.Fits n.home f := by
  have hi : i < n.slots.length := by
    rw [h.length_slots]
    exact (List.getElem?_eq_some_iff.1 hf).1
  refine ⟨n.slots[i], List.getElem?_eq_getElem hi, ?_⟩
  exact h.fits (f, n.slots[i]) (mem_fields_iff.2 ⟨i, hf, List.getElem?_eq_getElem hi⟩)

/-- Each slot has its field. -/
theorem exists_field (h : n.Sound) (hs : s ∈ n.slots) :
    ∃ f, (f, s) ∈ n.fields ∧ s.Fits n.home f := by
  obtain ⟨i, hi⟩ := List.mem_iff_getElem?.1 hs
  have hlt : i < n.schema.fields.length := by
    rw [← h.length_slots]
    exact (List.getElem?_eq_some_iff.1 hi).1
  have hmem : (n.schema.fields[i], s) ∈ n.fields :=
    mem_fields_iff.2 ⟨i, List.getElem?_eq_getElem hlt, hi⟩
  exact ⟨_, hmem, h.fits _ hmem⟩

theorem slotAt_fits (h : n.Sound) (hf : n.schema.fields[i]? = some f) :
    (n.slotAt i).Fits n.home f := by
  obtain ⟨s, hs, hfit⟩ := h.exists_slot hf
  rw [slotAt, List.getD_eq_getElem?_getD, hs]
  exact hfit

/-- A slot may be replaced by any other that fits the field at its place. -/
theorem putSlot (h : n.Sound) (hf : n.schema.fields[i]? = some f) (hs : s.Fits n.home f) :
    (n.putSlot i s).Sound := by
  refine ⟨h.schema_known, ?_, ?_⟩
  · rw [slots_putSlot, List.length_set]
    exact h.length_slots
  · rintro ⟨g, t⟩ hg
    obtain ⟨j, hgj, htj⟩ := mem_fields_iff.1 hg
    rcases eq_or_getElem?_of_putSlot htj with ⟨rfl, rfl⟩ | ⟨-, htj⟩
    · -- the place that was written
      obtain rfl : f = g := Option.some.inj (hf.symm.trans hgj)
      exact hs
    · exact h.fits (g, t) (mem_fields_iff.2 ⟨j, hgj, htj⟩)

end Sound

/-- A fresh node of a registered schema is sound. -/
theorem sound_fresh {home : Sealed} {schema : NodeSchema}
    (h : home.registry.get? schema.kind = some schema) : (fresh home schema).Sound := by
  refine ⟨h, by simp [fresh, slots, Node.schema], ?_⟩
  rintro ⟨f, s⟩ hp
  obtain ⟨i, hf, hs⟩ := mem_fields_iff.1 hp
  rw [eq_defaultSlot_of_fresh hf hs]
  exact Slot.fits_defaultSlot _ f

end Node

/-! ## Soundness all the way down -/

/-- Every node that lies in the value is sound. -/
def Value.Sound (v : Value) : Prop := ∀ m, v.Reaches m → m.Sound

/-- The node and every node inside it is sound. -/
def Node.DeeplySound (n : Node) : Prop := (Value.node n).Sound

/-- Every node in a value that a field takes belongs to the field's registry. -/
theorem Value.Reaches.home_eq {home : Sealed} {f : FieldSpec} {v : Value} {m : Node}
    (hm : v.Reaches m) (hv : v.Sound) (ht : f.Takes home v) : m.home = home := by
  induction hm generalizing home f with
  | here n => exact ht.home_eq
  -- no field takes a sequence as a value
  | element => exact absurd ht.1 (by simp [Value.isSeq])
  -- one level down, the field that takes the value is one of the node's own
  | @slot n m s w hs hw _ ih =>
      have hn : n.Sound := hv n (.here n)
      obtain ⟨g, -, hfit⟩ := hn.exists_field hs
      have hw' : w.Sound := fun k hk => hv k (.slot hs hw hk)
      rw [ih hw' (hfit.takes w hw)]
      exact ht.home_eq

namespace Node.DeeplySound

variable {n n' : Node} {f : FieldSpec} {i : Nat} {v : Value}

theorem sound (h : n.DeeplySound) : n.Sound := h n (.here n)

theorem of_contains (h : n.DeeplySound) {m : Node} (hm : n.Contains m) : m.DeeplySound := by
  have hreach : (Value.node n).Reaches m := Value.reaches_node_iff.2 (Or.inr hm)
  exact fun k hk => h k (hreach.trans hk)

theorem of_mem_slots (h : n.DeeplySound) {s : Slot} (hs : s ∈ n.slots) :
    ∀ v ∈ s.values, v.Sound :=
  fun _ hv m hm => h m (.slot hs hv hm)

/-- What can be read from a field is sound. -/
theorem of_get (h : n.DeeplySound) {field : String} {s : Slot} (hs : n.get field = .ok s) :
    ∀ v ∈ s.values, v.Sound := by
  obtain ⟨p, hl, rfl⟩ := get_eq_ok_iff.1 hs
  have hf := getElem?_of_locate hl
  obtain ⟨t, ht, -⟩ := h.sound.exists_slot hf
  rw [slotAt, List.getD_eq_getElem?_getD, ht]
  exact h.of_mem_slots (List.mem_of_getElem? ht)

/-- A node is deeply sound when it is sound and so is all that its slots hold. -/
theorem of_slots (h : n.Sound) (hs : ∀ s ∈ n.slots, ∀ v ∈ s.values, v.Sound) : n.DeeplySound := by
  intro m hm
  rcases Value.reaches_node_iff.1 hm with rfl | ⟨s, hmem, v, hv, hreach⟩
  · exact h
  · exact hs s hmem v hv m hreach

/-- All nodes inside belong to the registry of the whole. -/
theorem home_eq (h : n.DeeplySound) {m : Node} (hm : n.Contains m) : m.home = n.home := by
  obtain ⟨s, hs, v, hv, hreach⟩ := hm
  obtain ⟨f, -, hfit⟩ := h.sound.exists_field hs
  exact hreach.home_eq (h.of_mem_slots hs v hv) (hfit.takes v hv)

theorem putSlot (h : n.DeeplySound) (hf : n.schema.fields[i]? = some f) {s : Slot}
    (hs : s.Fits n.home f) (hv : ∀ v ∈ s.values, v.Sound) : (n.putSlot i s).DeeplySound := by
  refine of_slots (h.sound.putSlot hf hs) ?_
  intro t ht
  rcases List.mem_or_eq_of_mem_set ht with ht | rfl
  · exact h.of_mem_slots ht
  · exact hv

/-! ## Each operation keeps it -/

theorem write (h : n.DeeplySound) (hv : v.Sound) {p : FieldSpec × Nat}
    (hp : n.schema.fields[p.2]? = some p.1) (hw : n.write p v = .ok n') : n'.DeeplySound := by
  obtain ⟨slot, haccept, rfl⟩ := write_eq_ok_iff.1 hw
  rcases accept_eq_ok_iff.1 haccept with ⟨hm, ht, rfl⟩ | ⟨hm, items, rfl, hts, rfl⟩
  · refine h.putSlot hp ((Slot.fits_iff_of_single hm).2 (Or.inr ⟨v, rfl, ht⟩)) ?_
    simpa [Slot.values] using hv
  · refine h.putSlot hp ((Slot.fits_iff_of_sequence hm).2 ⟨items, rfl, hts⟩) ?_
    exact fun w hw m hm => hv m (.element hw hm)

theorem set (h : n.DeeplySound) (hv : v.Sound) {field : String} (hs : n.set field v = .ok n') :
    n'.DeeplySound := by
  obtain ⟨p, hl, hw⟩ := set_eq_ok_iff.1 hs
  exact h.write hv (getElem?_of_locate hl) hw

theorem push (h : n.DeeplySound) (hv : v.Sound) {field : String} (hs : n.push field v = .ok n') :
    n'.DeeplySound := by
  obtain ⟨f, i, hl, hm, ht, rfl⟩ := push_eq_ok_iff.1 hs
  have hf := getElem?_of_locate hl
  refine h.putSlot hf ((h.sound.slotAt_fits hf).append hm ht) ?_
  intro w hw
  rcases Slot.eq_or_mem_of_mem_values_append hw with rfl | hw
  · exact hv
  · -- what is there already can be read from the field
    exact h.of_get (get_eq_ok_iff.2 ⟨_, hl, rfl⟩) w hw

theorem clear (h : n.DeeplySound) {field : String} (hc : n.clear field = .ok n') :
    n'.DeeplySound := by
  obtain ⟨p, hl, rfl⟩ := clear_eq_ok_iff.1 hc
  refine h.putSlot (getElem?_of_locate hl) (Slot.fits_defaultSlot _ _) ?_
  simp [Slot.values_defaultSlot]

/-- Whatever an edit does, a parent that keeps a deeply sound child is deeply sound. -/
theorem editChild (h : n.DeeplySound) {α : Type} {field : String} {edit : Node → α × Node}
    {answer : Option α}
    (hedit : ∀ child, n.get field = .ok (.single (.node child)) → (edit child).2.DeeplySound)
    (he : n.editChild field edit = .ok (answer, n')) : n'.DeeplySound := by
  obtain ⟨f, i, hl, hcase⟩ := editChild_eq_ok_iff.1 he
  rcases hcase with ⟨child, hchild, hadmits, -, rfl⟩ | ⟨-, -, rfl⟩
  · have hf := getElem?_of_locate hl
    have hget : n.get field = .ok (.single (.node child)) :=
      get_eq_ok_iff.2 ⟨_, hl, hchild.symm⟩
    -- the field holds a value by itself, so it is no sequence field
    have hm : f.multiplicity.isSequence = false := by
      by_contra hseq
      have hfit := h.sound.slotAt_fits hf
      rw [Slot.fits_iff_of_sequence (by simpa using hseq), hchild] at hfit
      obtain ⟨items, hitems, -⟩ := hfit
      exact Slot.noConfusion hitems
    have ht : f.Takes n.home (.node (edit child).2) :=
      ⟨rfl, FieldSpec.admits_iff.1 hadmits⟩
    refine h.putSlot hf ((Slot.fits_iff_of_single hm).2 (Or.inr ⟨_, rfl, ht⟩)) ?_
    intro w hw
    obtain rfl := List.mem_singleton.1 hw
    exact hedit child hget
  · exact h

/-! ## New nodes -/

/-- Positional values are written at the places of their fields. -/
theorem fillPositional (h : n.DeeplySound) {ps : List (FieldSpec × Nat)} {vs : List Value}
    (hp : ∀ p ∈ ps, n.schema.fields[p.2]? = some p.1) (hv : ∀ v ∈ vs, v.Sound)
    (hf : n.fillPositional ps vs = .ok n') : n'.DeeplySound := by
  induction ps generalizing n vs with
  | nil =>
      obtain rfl : n = n' := by simpa [Node.fillPositional] using hf
      exact h
  | cons p ps ih =>
      cases vs with
      | nil =>
          obtain rfl : n = n' := by simpa [Node.fillPositional] using hf
          exact h
      | cons v vs =>
          rw [Node.fillPositional] at hf
          cases hw : n.write p v with
          | error e => simp [hw] at hf
          | ok n₁ =>
              rw [hw] at hf
              have hn₁ : n₁.DeeplySound :=
                h.write (hv v List.mem_cons_self) (hp p List.mem_cons_self) hw
              -- a write leaves the schema as it is, so the places are still those of the fields
              obtain ⟨slot, -, rfl⟩ := write_eq_ok_iff.1 hw
              exact ih hn₁ (fun q hq => hp q (List.mem_cons_of_mem _ hq))
                (fun w hw => hv w (List.mem_cons_of_mem _ hw)) hf

theorem fillNamed (h : n.DeeplySound) {filled : List Nat} {vs : List (String × Value)}
    (hv : ∀ p ∈ vs, p.2.Sound) (hf : n.fillNamed filled vs = .ok n') : n'.DeeplySound := by
  induction vs generalizing n filled with
  | nil =>
      obtain rfl : n = n' := by simpa [Node.fillNamed] using hf
      exact h
  | cons p rest ih =>
      rw [Node.fillNamed] at hf
      cases hl : n.locate p.1 with
      | error e => simp [hl] at hf
      | ok q =>
          simp only [hl] at hf
          split at hf
          · simp at hf
          · cases hw : n.write q p.2 with
            | error e => simp [hw] at hf
            | ok n₁ =>
                rw [hw] at hf
                have hn₁ : n₁.DeeplySound :=
                  h.write (hv p List.mem_cons_self) (getElem?_of_locate hl) hw
                exact ih hn₁ (fun r hr => hv r (List.mem_cons_of_mem _ hr)) hf

end Node.DeeplySound

namespace Sealed

variable {home : Sealed} {kind : String} {n : Node}

/-- A new node is a fresh node of the schema registered for its kind. -/
theorem node_eq_ok_iff :
    home.node kind = .ok n ↔ ∃ s, home.registry.get? kind = some s ∧ n = Node.fresh home s := by
  unfold node Registry.schema
  cases home.registry.get? kind <;> simp [Except.map, eq_comm]

/-- A new node of a coherent registry is deeply sound. -/
theorem deeplySound_of_node (hc : home.registry.Coherent) (h : home.node kind = .ok n) :
    n.DeeplySound := by
  obtain ⟨s, hs, rfl⟩ := node_eq_ok_iff.1 h
  have hk : s.kind = kind := (hc.get?_eq_some_iff.1 hs).2
  refine Node.DeeplySound.of_slots (Node.sound_fresh (by rwa [hk])) ?_
  intro t ht
  obtain ⟨f, -, rfl⟩ := List.mem_map.1 ht
  simp [Slot.values_defaultSlot]

/-- A node made with its values is deeply sound when the values are. -/
theorem deeplySound_of_build (hc : home.registry.Coherent) {positional : List Value}
    {named : List (String × Value)} (hp : ∀ v ∈ positional, v.Sound) (hv : ∀ p ∈ named, p.2.Sound)
    (h : home.build kind positional named = .ok n) : n.DeeplySound := by
  unfold build at h
  cases hn : home.node kind with
  | error e => simp [hn] at h
  | ok n₀ =>
      simp only [hn] at h
      split at h
      · simp at h
      · cases hf : n₀.fillPositional n₀.schema.fields.zipIdx positional with
        | error e => simp [hf] at h
        | ok n₁ =>
            rw [hf] at h
            have hplaces : ∀ p ∈ n₀.schema.fields.zipIdx, n₀.schema.fields[p.2]? = some p.1 :=
              fun p hp => List.mem_zipIdx_iff_getElem?.1 hp
            exact ((deeplySound_of_node hc hn).fillPositional hplaces hp hf).fillNamed hv h

end Sealed

end TreeSchema
