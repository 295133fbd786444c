/-
# TreeSchema.Proofs.Node.Recast — nodes in the place of other registries' nodes.

Two registries that are the same when bare make nodes that can be told apart by nothing but the registry
they belong to and the descriptions in their schema.  To `recast` a value is to put the counterpart of a
registry in the place of each registry in it, and to drop the descriptions.  A value corresponds to another
if both come to the same, one recast by the counterparts and the other as it is.

Every operation on a node commutes with recasting.  What it asks of a registry is which kinds extend which,
and whether a node belongs to it; counterparts answer the first question alike, and the second one because
no two registries have the same counterpart.
-/
import TreeSchema.Node.Completeness
import TreeSchema.Node.Construction
import TreeSchema.Proofs.Registry.Description

namespace TreeSchema

/-- A choice of counterparts: different registries have different ones, the same when bare. -/
structure Counterparts (κ : Sealed → Sealed) : Prop where
  injective : Function.Injective κ
  bare : ∀ home, (κ home).registry.bare = home.registry.bare

namespace Counterparts

variable {κ : Sealed → Sealed}

/-- Every registry is a counterpart of its own. -/
theorem own : Counterparts id := ⟨Function.injective_id, fun _ => rfl⟩

theorem isA (h : Counterparts κ) (home : Sealed) (kind ancestor : String) :
    (κ home).registry.isA kind ancestor = home.registry.isA kind ancestor := by
  rw [← Registry.isA_bare, h.bare, Registry.isA_bare]

end Counterparts

/-! ## Recasting -/

mutual

/-- The value with counterparts for registries, and without descriptions. -/
def Value.recast (κ : Sealed → Sealed) : Value → Value
  | .null => .null
  | .bool b => .bool b
  | .int n => .int n
  | .float x => .float x
  | .text s => .text s
  | .identifier i => .identifier i
  | .singleton s => .singleton s
  | .seq items => .seq (Value.recastAll κ items)
  | .node n => .node (Node.recast κ n)

def Value.recastAll (κ : Sealed → Sealed) : List Value → List Value
  | [] => []
  | v :: vs => Value.recast κ v :: Value.recastAll κ vs

/-- What a field holds, recast. -/
def Slot.recast (κ : Sealed → Sealed) : Slot → Slot
  | .unset => .unset
  | .single v => .single (Value.recast κ v)
  | .many items => .many (Value.recastAll κ items)

def Slot.recastAll (κ : Sealed → Sealed) : List Slot → List Slot
  | [] => []
  | s :: ss => Slot.recast κ s :: Slot.recastAll κ ss

/-- The node of the counterpart that follows the bare schema and holds the same, recast. -/
def Node.recast (κ : Sealed → Sealed) : Node → Node
  | .mk home schema slots => .mk (κ home) schema.bare (Slot.recastAll κ slots)

end

variable {κ : Sealed → Sealed}

@[simp] theorem Value.recastAll_eq_map (vs : List Value) :
    recastAll κ vs = vs.map (recast κ) := by
  induction vs with
  | nil => rfl
  | cons v vs ih => rw [recastAll, ih, List.map_cons]

@[simp] theorem Slot.recastAll_eq_map (ss : List Slot) :
    recastAll κ ss = ss.map (recast κ) := by
  induction ss with
  | nil => rfl
  | cons s ss ih => rw [recastAll, ih, List.map_cons]

namespace Node

@[simp] theorem home_recast (n : Node) : (n.recast κ).home = κ n.home := by
  obtain ⟨home, schema, slots⟩ := n
  rfl

@[simp] theorem schema_recast (n : Node) : (n.recast κ).schema = n.schema.bare := by
  obtain ⟨home, schema, slots⟩ := n
  rfl

@[simp] theorem slots_recast (n : Node) : (n.recast κ).slots = n.slots.map (Slot.recast κ) := by
  obtain ⟨home, schema, slots⟩ := n
  simp [recast, Node.slots]

@[simp] theorem kind_recast (n : Node) : (n.recast κ).kind = n.kind := by
  simp [kind]

end Node

@[simp] theorem Value.isSeq_recast (v : Value) : (v.recast κ).isSeq = v.isSeq := by
  cases v <;> rfl

@[simp] theorem Slot.isSet_recast (s : Slot) : (s.recast κ).isSet = s.isSet := by
  cases s <;> rfl

@[simp] theorem Slot.asMany?_recast (s : Slot) :
    (s.recast κ).asMany? = s.asMany?.map fun items => items.map (Value.recast κ) := by
  cases s <;> simp [recast, asMany?]

/-! ## Texts -/

mutual

/-- A recast value has the text that it had. -/
theorem Value.render_recast : (v : Value) → (v.recast κ).render = v.render
  | .null | .bool true | .bool false | .int _ | .float _ | .text _ | .identifier _ | .singleton _ => by
      simp only [Value.recast]
  | .seq items => by
      rw [Value.recast, Value.render, Value.render, Value.renderList_recast items]
  | .node n => by
      rw [Value.recast, Value.render, Value.render, Node.render_recast n]

theorem Value.renderList_recast :
    (vs : List Value) → Value.renderList (Value.recastAll κ vs) = Value.renderList vs
  | [] => rfl
  | v :: vs => by
      rw [Value.recastAll, Value.renderList, Value.renderList, Value.render_recast v,
        Value.renderList_recast vs]

theorem Slot.render_recast : (s : Slot) → (s.recast κ).render = s.render
  | .unset => rfl
  | .single v => by rw [Slot.recast, Slot.render, Slot.render, Value.render_recast v]
  | .many items => by rw [Slot.recast, Slot.render, Slot.render, Value.renderList_recast items]

theorem Slot.renderFields_recast : (fs : List FieldSpec) → (ss : List Slot) →
    Slot.renderFields (fs.map FieldSpec.bare) (Slot.recastAll κ ss) = Slot.renderFields fs ss
  | f :: fs, s :: ss => by
      rw [List.map_cons, Slot.recastAll, Slot.renderFields, Slot.renderFields, Slot.render_recast s,
        Slot.renderFields_recast fs ss, FieldSpec.name_bare]
  | [], _ => by simp [Slot.renderFields]
  | _ :: _, [] => by simp [Slot.renderFields]

theorem Node.render_recast : (n : Node) → (n.recast κ).render = n.render
  | .mk home schema slots => by
      rw [Node.recast, Node.render, Node.render, NodeSchema.fields_bare,
        Slot.renderFields_recast schema.fields slots, NodeSchema.kind_bare]

end

/-! ## Admission -/

namespace Counterparts

variable {home : Sealed}

/-- **A field type takes of the counterpart what it takes of the registry.** -/
theorem admits_type (h : Counterparts κ) (home : Sealed) (t : FieldType) (v : Value) :
    t.admits (κ home) (v.recast κ) = t.admits home v := by
  cases v with
  | node n =>
      cases t with
      | node kind =>
          -- whether the node belongs to the registry is whether their counterparts are one
          simp only [Value.recast, FieldType.admits, Node.home_recast, Node.kind_recast,
            h.injective.eq_iff, h.isA]
      | _ => rfl
  | _ => cases t <;> rfl

theorem admits (h : Counterparts κ) (home : Sealed) (f : FieldSpec) (v : Value) :
    f.bare.admits (κ home) (v.recast κ) = f.admits home v := by
  simp only [FieldSpec.admits, FieldSpec.types_bare, h.admits_type]

theorem takesElement (h : Counterparts κ) (home : Sealed) (f : FieldSpec) (v : Value) :
    Node.takesElement (κ home) f.bare (v.recast κ) = Node.takesElement home f v := by
  simp only [Node.takesElement, Value.isSeq_recast, h.admits]

theorem firstRefused? (h : Counterparts κ) (home : Sealed) (f : FieldSpec) (items : List Value) :
    Node.firstRefused? (κ home) f.bare (items.map (Value.recast κ))
      = (Node.firstRefused? home f items).map fun p => (p.1.recast κ, p.2) := by
  rw [Node.firstRefused?, Node.firstRefused?, List.zipIdx_map, List.find?_map]
  congr 1
  simp only [Function.comp_def, Prod.map_fst, h.takesElement]

end Counterparts

/-! ## Writes -/

theorem Slot.recast_append (s : Slot) (v : Value) :
    (s.append v).recast κ = (s.recast κ).append (v.recast κ) := by
  cases s <;> simp [append, recast]

/-- A place of a field, without the description of the field. -/
def barePlace (p : FieldSpec × Nat) : FieldSpec × Nat := (p.1.bare, p.2)

theorem NodeSchema.locate?_bare (s : NodeSchema) (name : String) :
    s.bare.locate? name = (s.locate? name).map barePlace := by
  have hposition : s.bare.position? name = s.position? name := by
    rw [position?, position?, fields_bare, List.findIdx?_map]
    rfl
  rw [locate?, locate?, hposition, Option.map_bind]
  refine Option.bind_congr fun i _ => ?_
  rw [Function.comp_apply, fields_bare, List.getElem?_map, Option.map_map, Option.map_map]
  rfl

theorem Multiplicity.recast_defaultSlot (m : Multiplicity) :
    m.defaultSlot.recast κ = m.defaultSlot := by
  cases m <;> rfl

namespace Node

theorem locate_recast (n : Node) (field : String) :
    (n.recast κ).locate field = (n.locate field).map barePlace := by
  rw [locate, locate, schema_recast, NodeSchema.locate?_bare, kind_recast]
  cases n.schema.locate? field <;> rfl

theorem slotAt_recast (n : Node) (i : Nat) : (n.recast κ).slotAt i = (n.slotAt i).recast κ := by
  rw [slotAt, slotAt, slots_recast]
  rw [List.getD_eq_getElem?_getD, List.getD_eq_getElem?_getD, List.getElem?_map]
  cases n.slots[i]? <;> rfl

theorem elementsAt_recast (n : Node) (i : Nat) :
    (n.recast κ).elementsAt i = (n.elementsAt i).map (Value.recast κ) := by
  rw [elementsAt, elementsAt, slotAt_recast, Slot.asMany?_recast]
  cases (n.slotAt i).asMany? <;> rfl

theorem recast_putSlot (n : Node) (i : Nat) (s : Slot) :
    (n.putSlot i s).recast κ = (n.recast κ).putSlot i (s.recast κ) := by
  rw [putSlot, putSlot, recast, home_recast, schema_recast, slots_recast, Slot.recastAll_eq_map,
    List.map_set]

theorem refusal_recast (n : Node) (f : FieldSpec) (v : Value) (reason : Mismatch) :
    (n.recast κ).refusal f.bare (v.recast κ) reason = n.refusal f v reason := by
  rw [refusal, refusal, kind_recast, FieldSpec.name_bare, Value.render_recast]

theorem get_recast (n : Node) (field : String) :
    (n.recast κ).get field = (n.get field).map (Slot.recast κ) := by
  rw [get, get, locate_recast]
  cases n.locate field with
  | error e => rfl
  | ok p => exact congrArg Except.ok (slotAt_recast n p.2)

theorem recast_fresh (home : Sealed) (schema : NodeSchema) :
    (fresh home schema).recast κ = fresh (κ home) schema.bare := by
  simp [fresh, recast, Multiplicity.recast_defaultSlot]

/-- A sequence field takes nothing but sequences. -/
theorem accept_of_bare_value {n : Node} {f : FieldSpec} {v : Value}
    (hm : f.multiplicity.isSequence = true) (hv : v.isSeq = false) :
    n.accept f v = .error (n.refusal f v .expectedSequence) := by
  rw [accept, if_pos hm]
  cases v with
  | seq items => cases hv
  | _ => simp

section

variable (h : Counterparts κ) (n : Node) (f : FieldSpec) (v : Value)

include h

theorem accept_recast :
    (n.recast κ).accept f.bare (v.recast κ) = (n.accept f v).map (Slot.recast κ) := by
  cases hm : f.multiplicity.isSequence with
  | true =>
      cases hv : v.isSeq with
      | true =>
          obtain ⟨items, rfl⟩ : ∃ items, v = .seq items := by
            cases v <;> simp [Value.isSeq] at hv
            exact ⟨_, rfl⟩
          simp only [accept, FieldSpec.multiplicity_bare, hm, if_true, Value.recast,
            Value.recastAll_eq_map, home_recast, h.firstRefused?, FieldSpec.typeNames_bare]
          cases firstRefused? n.home f items with
          | none => simp [Except.map, Slot.recast]
          | some p => exact congrArg Except.error (refusal_recast n f p.1 _)
      | false =>
          have hrecast : (v.recast κ).isSeq = false := by rw [Value.isSeq_recast, hv]
          have hm' : f.bare.multiplicity.isSequence = true := hm
          rw [accept_of_bare_value hm hv, accept_of_bare_value hm' hrecast, refusal_recast]
          rfl
  | false =>
      simp only [accept, FieldSpec.multiplicity_bare, hm, Value.isSeq_recast, home_recast, h.admits,
        refusal_recast, FieldSpec.typeNames_bare]
      cases v.isSeq <;> cases f.admits n.home v <;> simp [Except.map, Slot.recast]

theorem write_recast (i : Nat) :
    (n.recast κ).write (f.bare, i) (v.recast κ) = (n.write (f, i) v).map (Node.recast κ) := by
  simp only [write, accept_recast h]
  cases n.accept f v with
  | error e => rfl
  | ok s => exact congrArg Except.ok (recast_putSlot n i s).symm

theorem set_recast (field : String) :
    (n.recast κ).set field (v.recast κ) = (n.set field v).map (Node.recast κ) := by
  simp only [set, locate_recast]
  cases n.locate field with
  | error e => rfl
  | ok p => exact write_recast h n p.1 v p.2

theorem push_recast (field : String) :
    (n.recast κ).push field (v.recast κ) = (n.push field v).map (Node.recast κ) := by
  simp only [push, locate_recast]
  cases n.locate field with
  | error e => rfl
  | ok p =>
      simp only [Except.map, barePlace, FieldSpec.multiplicity_bare, home_recast, h.takesElement,
        elementsAt_recast, FieldSpec.typeNames_bare, refusal_recast, List.length_map]
      cases p.1.multiplicity.isSequence with
      | false => rfl
      | true =>
          cases takesElement n.home p.1 v with
          | false => rfl
          | true => simp [recast_putSlot, slotAt_recast, Slot.recast_append]

end

theorem clear_recast (n : Node) (field : String) :
    (n.recast κ).clear field = (n.clear field).map (Node.recast κ) := by
  simp only [clear, locate_recast]
  cases n.locate field with
  | error e => rfl
  | ok p => simp [Except.map, barePlace, recast_putSlot, Multiplicity.recast_defaultSlot]

/-! ## Finishing -/

theorem missing_recast (n : Node) : (n.recast κ).missing = n.missing := by
  -- recasting goes field by field, and a field asks only whether there is something in its slot
  have hfields : (n.recast κ).fields = n.fields.map fun p => (p.1.bare, p.2.recast κ) := by
    simp [fields, List.zip_map, Prod.map]
  have hjudge : ∀ p : FieldSpec × Slot,
      p.1.bare.multiplicity.isSatisfiedBy (p.2.recast κ) = p.1.multiplicity.isSatisfiedBy p.2 := by
    intro p
    cases hm : p.1.multiplicity <;>
      simp [hm, Multiplicity.isSatisfiedBy, Option.any_map]
  simp only [missing, hfields, List.filter_map, List.map_map, Function.comp_def, hjudge,
    FieldSpec.name_bare]

theorem finalize_recast (n : Node) : (n.recast κ).finalize = n.finalize := by
  rw [finalize, finalize, missing_recast, kind_recast]

end Node

mutual

/-- Finishing a whole tree answers as it did. -/
theorem Node.finalizeTree_recast : (n : Node) → (n.recast κ).finalizeTree = n.finalizeTree
  | .mk home schema slots => by
      have hroot := Node.finalize_recast (κ := κ) (.mk home schema slots)
      rw [Node.recast] at hroot ⊢
      rw [Node.finalizeTree, Node.finalizeTree, hroot, NodeSchema.fields_bare,
        Slot.finalizeFields_recast schema.fields slots]

theorem Slot.finalizeFields_recast : (fs : List FieldSpec) → (ss : List Slot) →
    Slot.finalizeFields (fs.map FieldSpec.bare) (Slot.recastAll κ ss) = Slot.finalizeFields fs ss
  | f :: fs, s :: ss => by
      rw [List.map_cons, Slot.recastAll, Slot.finalizeFields, Slot.finalizeFields,
        FieldSpec.name_bare, Slot.finalizeIn_recast f.name s, Slot.finalizeFields_recast fs ss]
  | [], _ => by simp [Slot.finalizeFields]
  | _ :: _, [] => by simp [Slot.finalizeFields]

theorem Slot.finalizeIn_recast (field : String) :
    (s : Slot) → Slot.finalizeIn field (s.recast κ) = Slot.finalizeIn field s
  | .single (.node child) => by
      rw [Slot.recast, Value.recast, Slot.finalizeIn, Slot.finalizeIn,
        Node.finalizeTree_recast child]
  | .many items => by
      rw [Slot.recast, Slot.finalizeIn, Slot.finalizeIn, Value.finalizeItems_recast field 0 items]
  | .unset | .single .null | .single (.bool _) | .single (.int _) | .single (.float _)
  | .single (.text _) | .single (.identifier _) | .single (.singleton _) | .single (.seq _) => by
      rfl

theorem Value.finalizeItems_recast (field : String) : (i : Nat) → (vs : List Value) →
    Value.finalizeItems field i (Value.recastAll κ vs) = Value.finalizeItems field i vs
  | _, [] => rfl
  | i, .node child :: rest => by
      rw [Value.recastAll, Value.recast, Value.finalizeItems, Value.finalizeItems,
        Node.finalizeTree_recast child, Value.finalizeItems_recast field (i + 1) rest]
  | i, .null :: rest | i, .bool _ :: rest | i, .int _ :: rest | i, .float _ :: rest
  | i, .text _ :: rest | i, .identifier _ :: rest | i, .singleton _ :: rest
  | i, .seq _ :: rest => by
      rw [Value.recastAll, Value.recast, Value.finalizeItems, Value.finalizeItems,
        Value.finalizeItems_recast field (i + 1) rest] <;> simp

end

/-! ## Construction -/

namespace Node

section

variable (h : Counterparts κ)

include h

theorem fillPositional_recast (n : Node) (ps : List (FieldSpec × Nat)) (vs : List Value) :
    (n.recast κ).fillPositional (ps.map barePlace) (vs.map (Value.recast κ))
      = (n.fillPositional ps vs).map (Node.recast κ) := by
  induction ps generalizing n vs with
  | nil => simp [fillPositional, Except.map]
  | cons p ps ih =>
      cases vs with
      | nil => simp [fillPositional, Except.map]
      | cons v vs =>
          have hwrite : (n.recast κ).write (barePlace p) (v.recast κ)
              = (n.write p v).map (Node.recast κ) := write_recast h n p.1 v p.2
          rw [List.map_cons, List.map_cons, fillPositional, fillPositional, hwrite]
          cases n.write p v with
          | error e => rfl
          | ok n' => exact ih n' vs

/-- Named values, recast. -/
theorem fillNamed_recast (n : Node) (filled : List Nat) (named : List (String × Value)) :
    (n.recast κ).fillNamed filled (named.map fun p => (p.1, p.2.recast κ))
      = (n.fillNamed filled named).map (Node.recast κ) := by
  induction named generalizing n filled with
  | nil => rfl
  | cons p rest ih =>
      obtain ⟨name, v⟩ := p
      simp only [List.map_cons, fillNamed, locate_recast]
      cases n.locate name with
      | error e => rfl
      | ok q =>
          simp only [Except.map, barePlace, kind_recast]
          cases hfilled : filled.contains q.2 with
          | true => rfl
          | false =>
              have hwrite := write_recast h n q.1 v q.2
              simp only [hwrite, Bool.false_eq_true, if_false]
              cases n.write q v with
              | error e => rfl
              | ok n' => exact ih n' (q.2 :: filled)

end

end Node

end TreeSchema
