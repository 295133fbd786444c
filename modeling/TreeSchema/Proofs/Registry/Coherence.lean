/-
# TreeSchema.Proofs.Registry.Coherence — what registering keeps true of a registry.

A registry holds its schemas twice: as a list in order of registration, and as an index from each
kind to a place in that list.  `Coherent` says that the two agree, `NodeSchema.Proper` what a schema
must satisfy alone.  Registering takes exactly the proper schemas of new kinds, and every registry
grown from the empty one is coherent and holds proper schemas only.  References between schemas are
not looked at here; they are judged when a registry is validated.
-/
import TreeSchema.Registry
import Mathlib.Data.List.Nodup

namespace TreeSchema

/-- What a schema must satisfy before anything is known about the others. -/
structure NodeSchema.Proper (s : NodeSchema) : Prop where
  isIdentifier_kind : isIdentifier s.kind = true
  kind_not_builtin : FieldType.isBuiltinName s.kind = false
  isIdentifier_parent : ∀ p, s.parent = some p → isIdentifier p = true
  isIdentifier_name : ∀ f ∈ s.fields, isIdentifier f.name = true
  names_nodup : s.fieldNames.Nodup
  types_ne_nil : ∀ f ∈ s.fields, f.types ≠ []

namespace Registry

/-! ## Judging one schema -/

/-- No field is at fault exactly when all names are identifiers, new and different from each other,
and every field has a type. -/
theorem fieldFault?_eq_none_iff (kind : String) (seen : List String) (fs : List FieldSpec) :
    fieldFault? kind seen fs = none ↔
      (∀ f ∈ fs, isIdentifier f.name = true) ∧ (∀ f ∈ fs, f.types ≠ []) ∧
        (fs.map FieldSpec.name).Nodup ∧ ∀ f ∈ fs, f.name ∉ seen := by
  induction fs generalizing seen with
  | nil => simp [fieldFault?]
  | cons f rest ih =>
      by_cases hid : isIdentifier f.name = true
      · by_cases hseen : f.name ∈ seen
        · simp [fieldFault?, hid, hseen]
        · by_cases htypes : f.types = []
          · simp [fieldFault?, hid, hseen, htypes]
          · have hstep : fieldFault? kind seen (f :: rest)
                = fieldFault? kind (f.name :: seen) rest := by
              simp [fieldFault?, hid, hseen, htypes]
            rw [hstep, ih]
            -- the name of `f` moves from the names still to come to the names seen
            simp only [List.forall_mem_cons, List.map_cons, List.nodup_cons, List.mem_map,
              not_exists, not_and]
            constructor
            · rintro ⟨hids, htys, hnd, hnew⟩
              have hold : ∀ g ∈ rest, g.name ∉ seen := fun g hg hin =>
                hnew g hg (List.mem_cons_of_mem _ hin)
              have hother : ∀ g ∈ rest, g.name ≠ f.name := fun g hg hname =>
                hnew g hg (hname ▸ List.mem_cons_self)
              exact ⟨⟨hid, hids⟩, ⟨htypes, htys⟩, ⟨hother, hnd⟩, hseen, hold⟩
            · rintro ⟨⟨-, hids⟩, ⟨-, htys⟩, ⟨hother, hnd⟩, -, hold⟩
              refine ⟨hids, htys, hnd, ?_⟩
              intro g hg hin
              rcases List.mem_cons.1 hin with hname | hin
              · exact hother g hg hname
              · exact hold g hg hin
      · simp [fieldFault?, hid]

/-- A schema is not at fault exactly when it is proper and its kind is new. -/
theorem fault?_eq_none_iff (r : Registry) (s : NodeSchema) :
    r.fault? s = none ↔ s.Proper ∧ r.contains s.kind = false := by
  unfold fault?
  by_cases hkind : isIdentifier s.kind = true ∧ FieldType.isBuiltinName s.kind = false
  · obtain ⟨hid, hb⟩ := hkind
    rw [if_neg (by simp [hid, hb])]
    by_cases hc : r.contains s.kind = true
    · simp [hc]
    · rw [if_neg hc]
      cases hp : s.parent.filter fun p => !isIdentifier p with
      | some p =>
          have hbad : s.parent = some p ∧ isIdentifier p = false := by simpa using hp
          have himproper : ¬ s.Proper := by
            intro h
            have hgood := h.isIdentifier_parent p hbad.1
            rw [hbad.2] at hgood
            exact Bool.false_ne_true hgood
          simp [himproper]
      | none =>
          have hparent : ∀ p, s.parent = some p → isIdentifier p = true := by
            simpa using hp
          have hnew : r.contains s.kind = false := by simpa using hc
          simp only [fieldFault?_eq_none_iff]
          constructor
          · rintro ⟨hids, htys, hnd, -⟩
            exact ⟨⟨hid, hb, hparent, hids, hnd, htys⟩, hnew⟩
          · rintro ⟨h, -⟩
            exact ⟨h.isIdentifier_name, h.types_ne_nil, h.names_nodup, by simp⟩
  · have himproper : ¬ s.Proper := fun h => hkind ⟨h.isIdentifier_kind, h.kind_not_builtin⟩
    rw [if_pos (by
      rw [not_and_or, Bool.not_eq_true, Bool.not_eq_false] at hkind
      simpa using hkind)]
    simp [himproper]

/-- The registry with one more schema, as registering leaves it. -/
def append (r : Registry) (s : NodeSchema) : Registry :=
  ⟨r.schemas ++ [s], (s.kind, r.schemas.length) :: r.index⟩

theorem getElem?_append_iff {r : Registry} {s t : NodeSchema} {i : Nat} :
    (r.append s).schemas[i]? = some t ↔ r.schemas[i]? = some t ∨ i = r.schemas.length ∧ t = s := by
  simp only [append]
  rcases Nat.lt_trichotomy i r.schemas.length with hi | rfl | hi
  · rw [List.getElem?_append_left hi]
    simp [Nat.ne_of_lt hi]
  · simp [eq_comm]
  · rw [List.getElem?_append_right (by omega), List.getElem?_eq_none (by simp; omega)]
    simp [List.getElem?_eq_none (Nat.le_of_lt hi)]
    omega

theorem place?_append (r : Registry) (s : NodeSchema) (k : String) :
    (r.append s).place? k = if k = s.kind then some r.schemas.length else r.place? k := by
  by_cases hk : k = s.kind
  · simp [append, place?, hk]
  · have hbeq : (k == s.kind) = false := beq_eq_false_iff_ne.2 hk
    simp [append, place?, List.lookup_cons, hbeq, hk]

theorem contains_append (r : Registry) (s : NodeSchema) (k : String) :
    (r.append s).contains k = (decide (k = s.kind) || r.contains k) := by
  unfold contains
  rw [place?_append]
  by_cases hk : k = s.kind <;> simp [hk]

/-- Registering takes exactly the proper schemas of new kinds, and puts them last. -/
theorem register_eq_ok_iff {r r' : Registry} {s : NodeSchema} :
    r.register s = .ok r' ↔ (s.Proper ∧ r.contains s.kind = false) ∧ r' = r.append s := by
  rw [← fault?_eq_none_iff]
  unfold register
  cases r.fault? s with
  | none => simp [append, eq_comm]
  | some e => simp

/-! ## The list and the index agree -/

/-- The index leads from a kind to the place of the schema of that kind, and to no other place. -/
def Coherent (r : Registry) : Prop :=
  ∀ k i, r.place? k = some i ↔ ∃ s, r.schemas[i]? = some s ∧ s.kind = k

theorem coherent_empty : empty.Coherent := by
  intro k i
  simp [empty, place?]

namespace Coherent

variable {r : Registry}

/-- A kind is registered exactly when one of the schemas has it. -/
theorem contains_iff (h : r.Coherent) (k : String) :
    r.contains k = true ↔ ∃ s ∈ r.schemas, s.kind = k := by
  rw [contains, Option.isSome_iff_exists]
  constructor
  · rintro ⟨i, hi⟩
    obtain ⟨s, hs, hk⟩ := (h k i).1 hi
    exact ⟨s, List.mem_of_getElem? hs, hk⟩
  · rintro ⟨s, hs, hk⟩
    obtain ⟨i, hi⟩ := List.mem_iff_getElem?.1 hs
    exact ⟨i, (h k i).2 ⟨s, hi, hk⟩⟩

theorem contains_iff_mem_kinds (h : r.Coherent) (k : String) :
    r.contains k = true ↔ k ∈ r.kinds := by
  rw [h.contains_iff, kinds, List.mem_map]

/-- Looking a kind up gives the one schema that has it. -/
theorem get?_eq_some_iff (h : r.Coherent) {k : String} {s : NodeSchema} :
    r.get? k = some s ↔ s ∈ r.schemas ∧ s.kind = k := by
  rw [get?, Option.bind_eq_some_iff]
  constructor
  · rintro ⟨i, hi, hs⟩
    obtain ⟨t, ht, hk⟩ := (h k i).1 hi
    obtain rfl : t = s := Option.some.inj (ht.symm.trans hs)
    exact ⟨List.mem_of_getElem? hs, hk⟩
  · rintro ⟨hs, hk⟩
    obtain ⟨i, hi⟩ := List.mem_iff_getElem?.1 hs
    exact ⟨i, (h k i).2 ⟨s, hi, hk⟩, hi⟩

/-- Looking a kind up is searching the list for it. -/
theorem get?_eq_find? (h : r.Coherent) (k : String) :
    r.get? k = r.schemas.find? fun s => s.kind = k := by
  cases hf : r.schemas.find? fun s => decide (s.kind = k) with
  | some s =>
      have hk : s.kind = k := by simpa using List.find?_some hf
      exact h.get?_eq_some_iff.2 ⟨List.mem_of_find?_eq_some hf, hk⟩
  | none =>
      rw [Option.eq_none_iff_forall_ne_some]
      intro s hs
      obtain ⟨hmem, hk⟩ := h.get?_eq_some_iff.1 hs
      exact List.find?_eq_none.1 hf s hmem (by simpa using hk)

/-- A new kind takes the place after all others, and no other place changes. -/
theorem append (h : r.Coherent) {s : NodeSchema} (hnew : r.contains s.kind = false) :
    (r.append s).Coherent := by
  intro k i
  rw [place?_append]
  simp only [getElem?_append_iff]
  by_cases hk : k = s.kind
  · subst hk
    rw [if_pos rfl, Option.some.injEq]
    constructor
    · rintro rfl
      exact ⟨s, Or.inr ⟨rfl, rfl⟩, rfl⟩
    · rintro ⟨t, ht | ⟨hi, -⟩, htk⟩
      · -- the kind would be registered already
        have hc := (h.contains_iff s.kind).2 ⟨t, List.mem_of_getElem? ht, htk⟩
        rw [hnew] at hc
        exact absurd hc Bool.false_ne_true
      · exact hi.symm
  · rw [if_neg hk, h k i]
    constructor
    · rintro ⟨t, ht, htk⟩
      exact ⟨t, Or.inl ht, htk⟩
    · rintro ⟨t, ht | ⟨-, rfl⟩, htk⟩
      · exact ⟨t, ht, htk⟩
      · exact absurd htk.symm hk

end Coherent

/-! ## Registries that registering makes -/

/-- A registry that registering makes from the empty one. -/
inductive Grown : Registry → Prop
  | empty : Grown empty
  | register {r r' : Registry} {s : NodeSchema} :
      Grown r → r.register s = .ok r' → Grown r'

/-- Registering a list goes on from the first schema when that one is taken. -/
theorem registerAll_cons_eq_ok_iff {r r' : Registry} {s : NodeSchema} {rest : List NodeSchema} :
    r.registerAll (s :: rest) = .ok r' ↔
      (s.Proper ∧ r.contains s.kind = false) ∧ (r.append s).registerAll rest = .ok r' := by
  rw [registerAll]
  cases hs : r.register s with
  | error e =>
      refine iff_of_false (by simp) ?_
      rintro ⟨hok, -⟩
      rw [register_eq_ok_iff.2 ⟨hok, rfl⟩] at hs
      simp at hs
  | ok r₁ =>
      obtain ⟨hok, rfl⟩ := register_eq_ok_iff.1 hs
      exact ⟨fun hr => ⟨hok, hr⟩, And.right⟩

theorem schemas_of_registerAll {r r' : Registry} {ss : List NodeSchema}
    (h : r.registerAll ss = .ok r') : r'.schemas = r.schemas ++ ss := by
  induction ss generalizing r with
  | nil =>
      obtain rfl : r = r' := Except.ok.inj h
      simp
  | cons s rest ih =>
      have hrest := (registerAll_cons_eq_ok_iff.1 h).2
      rw [ih hrest]
      simp [append]

/-- Schemas can be registered one after the other exactly when all are proper and their kinds are
new and different from each other. -/
theorem exists_registerAll_iff {r : Registry} (hr : r.Coherent) (ss : List NodeSchema) :
    (∃ r', r.registerAll ss = .ok r') ↔
      (∀ s ∈ ss, s.Proper) ∧ (ss.map NodeSchema.kind).Nodup ∧
        ∀ s ∈ ss, r.contains s.kind = false := by
  induction ss generalizing r with
  | nil => simp [registerAll]
  | cons s rest ih =>
      simp only [registerAll_cons_eq_ok_iff, exists_and_left]
      by_cases hs : s.Proper ∧ r.contains s.kind = false
      · rw [ih (hr.append hs.2)]
        -- the kind of `s` is now one of those that the rest must differ from
        simp only [contains_append, Bool.or_eq_false_iff, decide_eq_false_iff_not,
          List.forall_mem_cons, List.map_cons, List.nodup_cons, List.mem_map, not_exists, not_and]
        constructor
        · rintro ⟨-, hproper, hnd, hnew⟩
          exact ⟨⟨hs.1, hproper⟩, ⟨fun t ht => (hnew t ht).1, hnd⟩, hs.2, fun t ht => (hnew t ht).2⟩
        · rintro ⟨⟨-, hproper⟩, ⟨hne, hnd⟩, -, hnew⟩
          exact ⟨hs, hproper, hnd, fun t ht => ⟨hne t ht, hnew t ht⟩⟩
      · refine iff_of_false (fun h => hs h.1) ?_
        rintro ⟨hproper, -, hnew⟩
        exact hs ⟨hproper s List.mem_cons_self, hnew s List.mem_cons_self⟩

theorem Grown.registerAll {r r' : Registry} {ss : List NodeSchema} (h : r.Grown)
    (hr : r.registerAll ss = .ok r') : r'.Grown := by
  induction ss generalizing r with
  | nil =>
      obtain rfl : r = r' := Except.ok.inj hr
      exact h
  | cons s rest ih =>
      obtain ⟨hs, hrest⟩ := registerAll_cons_eq_ok_iff.1 hr
      have hgrown : (r.append s).Grown := h.register (register_eq_ok_iff.2 ⟨hs, rfl⟩)
      exact ih hgrown hrest

/-- The registry after a call to register a schema: a refused schema leaves it as it was. -/
def attempt (r : Registry) (s : NodeSchema) : Registry :=
  match r.register s with
  | .ok r' => r'
  | .error _ => r

/-- The registry after calls on an empty one, each accepted or refused. -/
def ofCalls (calls : List NodeSchema) : Registry := calls.foldl attempt empty

theorem Grown.attempt {r : Registry} (h : r.Grown) (s : NodeSchema) : (r.attempt s).Grown := by
  unfold Registry.attempt
  cases hs : r.register s with
  | ok r' => exact h.register hs
  | error e => exact h

/-- Refused calls leave no trace, so what calls make is what registering makes. -/
theorem grown_ofCalls (calls : List NodeSchema) : (ofCalls calls).Grown := by
  apply List.foldlRecOn (motive := Grown) calls Registry.attempt .empty
  intro r hr s _
  exact hr.attempt s

/-- What registering makes is coherent. -/
theorem Grown.coherent {r : Registry} (h : r.Grown) : r.Coherent := by
  induction h with
  | empty => exact coherent_empty
  | register _ hr ih =>
      obtain ⟨⟨-, hnew⟩, rfl⟩ := register_eq_ok_iff.1 hr
      exact ih.append hnew

/-- What registering makes holds proper schemas only. -/
theorem Grown.proper {r : Registry} (h : r.Grown) : ∀ s ∈ r.schemas, s.Proper := by
  induction h with
  | empty => simp [Registry.empty]
  | register _ hr ih =>
      obtain ⟨⟨hs, -⟩, rfl⟩ := register_eq_ok_iff.1 hr
      intro t ht
      rcases List.mem_append.1 ht with ht | ht
      · exact ih t ht
      · obtain rfl := List.mem_singleton.1 ht
        exact hs

end Registry

end TreeSchema
