/-
# TreeSchema.Proofs.Value.Equality — the ways in which values, slots and nodes are equal.

Equality is computed by asking both sides for a text, then for a singleton, and only then for their
constructors, so a match on the two values does not follow it.  `Value.Equal` lists the ways in which the
answer comes out true, one constructor for each; proofs about equal values are case analyses of it.
Sequences and rows of slots are equal element by element.
-/
import TreeSchema.Value
import Mathlib.Data.List.Forall2

namespace TreeSchema

/-- The ways in which two values are equal. -/
inductive Value.Equal : Value → Value → Prop
  | text {v w : Value} {s : String} : v.asText? = some s → w.asText? = some s → Equal v w
  | singleton {v w : Value} {s : Singleton} :
      v.asSingleton? = some s → w.asSingleton? = some s → Equal v w
  | int (n : Int64) : Equal (.int n) (.int n)
  | float {x y : Decimal.Binary64} : x.equals y = true → Equal (.float x) (.float y)
  | seq {xs ys : List Value} : listEquals xs ys = true → Equal (.seq xs) (.seq ys)
  | node {n m : Node} : n.equals m = true → Equal (.node n) (.node m)

/-- The ways in which two slots hold equal things. -/
inductive Slot.Equal : Slot → Slot → Prop
  | unset : Equal .unset .unset
  | single {v w : Value} : v.equals w = true → Equal (.single v) (.single w)
  | many {xs ys : List Value} : Value.listEquals xs ys = true → Equal (.many xs) (.many ys)

theorem Value.equals_iff {v w : Value} : v.equals w = true ↔ v.Equal w := by
  unfold Value.equals
  constructor
  · intro h
    split at h
    · next a b ha hb => exact .text ha (by rwa [beq_iff_eq.1 h])
    · split at h
      · next a b ha hb => exact .singleton ha (by rwa [beq_iff_eq.1 h])
      · split at h
        · exact beq_iff_eq.1 h ▸ .int _
        · exact .float h
        · exact .seq h
        · exact .node h
        · exact absurd h Bool.false_ne_true
  · rintro (⟨hv, hw⟩ | ⟨hv, hw⟩ | _ | h | h | h)
    · simp [hv, hw]
    · -- what is a singleton is no text
      have htext : v.asText? = none := by cases v <;> simp_all [asText?, asSingleton?]
      simp [htext, hv, hw]
    · simp [asText?, asSingleton?]
    all_goals simpa [asText?, asSingleton?] using h

/-! What a value is equal to, by its own form. -/

namespace Value

variable {v w : Value}

theorem equals_iff_of_asText? {s : String} (h : v.asText? = some s) :
    v.equals w = true ↔ w.asText? = some s := by
  rw [equals_iff]
  constructor
  · rintro (⟨hv, hw⟩ | ⟨hv, -⟩ | _ | _ | _ | _)
    · rwa [← h, hv]
    · cases v <;> simp_all [asText?, asSingleton?]
    all_goals simp [asText?] at h
  · exact fun hw => .text h hw

theorem equals_iff_of_asSingleton? {s : Singleton} (h : v.asSingleton? = some s) :
    v.equals w = true ↔ w.asSingleton? = some s := by
  rw [equals_iff]
  constructor
  · rintro (⟨hv, -⟩ | ⟨hv, hw⟩ | _ | _ | _ | _)
    · cases v <;> simp_all [asText?, asSingleton?]
    · rwa [← h, hv]
    all_goals simp [asSingleton?] at h
  · exact fun hw => .singleton h hw

theorem int_equals_iff {n : Int64} : (int n).equals w = true ↔ w = .int n := by
  rw [equals_iff]
  constructor
  · rintro (⟨hv, -⟩ | ⟨hv, -⟩ | _)
    · simp [asText?] at hv
    · simp [asSingleton?] at hv
    · rfl
  · rintro rfl
    exact .int n

theorem float_equals_iff {x : Decimal.Binary64} :
    (float x).equals w = true ↔ ∃ y, w = .float y ∧ x.equals y = true := by
  rw [equals_iff]
  constructor
  · rintro (⟨hv, -⟩ | ⟨hv, -⟩ | _ | h)
    · simp [asText?] at hv
    · simp [asSingleton?] at hv
    · exact ⟨_, rfl, h⟩
  · rintro ⟨y, rfl, h⟩
    exact .float h

theorem seq_equals_iff {vs : List Value} :
    (seq vs).equals w = true ↔ ∃ ws, w = .seq ws ∧ listEquals vs ws = true := by
  rw [equals_iff]
  constructor
  · rintro (⟨hv, -⟩ | ⟨hv, -⟩ | _ | _ | h)
    · simp [asText?] at hv
    · simp [asSingleton?] at hv
    · exact ⟨_, rfl, h⟩
  · rintro ⟨ws, rfl, h⟩
    exact .seq h

theorem node_equals_iff {n : Node} :
    (node n).equals w = true ↔ ∃ m, w = .node m ∧ n.equals m = true := by
  rw [equals_iff]
  constructor
  · rintro (⟨hv, -⟩ | ⟨hv, -⟩ | _ | _ | _ | h)
    · simp [asText?] at hv
    · simp [asSingleton?] at hv
    · exact ⟨_, rfl, h⟩
  · rintro ⟨m, rfl, h⟩
    exact .node h

end Value

theorem Value.listEquals_iff {vs ws : List Value} :
    listEquals vs ws = true ↔ List.Forall₂ (fun v w => v.equals w = true) vs ws := by
  induction vs generalizing ws with
  | nil => cases ws <;> simp [listEquals]
  | cons v vs ih => cases ws <;> simp [listEquals, ih]

theorem Slot.equals_iff {s t : Slot} : s.equals t = true ↔ s.Equal t := by
  constructor
  · intro h
    cases s <;> cases t <;> simp [equals] at h <;> constructor <;> exact h
  · rintro (_ | h | h)
    · simp [equals]
    · simpa [equals] using h
    · simpa [equals] using h

namespace Slot

variable {t : Slot}

theorem unset_equals_iff : unset.equals t = true ↔ t = .unset := by
  cases t <;> simp [equals]

theorem single_equals_iff {v : Value} :
    (single v).equals t = true ↔ ∃ w, t = .single w ∧ v.equals w = true := by
  cases t <;> simp [equals]

theorem many_equals_iff {vs : List Value} :
    (many vs).equals t = true ↔ ∃ ws, t = .many ws ∧ Value.listEquals vs ws = true := by
  cases t <;> simp [equals]

end Slot

theorem Slot.listEquals_iff {ss ts : List Slot} :
    listEquals ss ts = true ↔ List.Forall₂ (fun s t => s.equals t = true) ss ts := by
  induction ss generalizing ts with
  | nil => cases ts <;> simp [listEquals]
  | cons s ss ih => cases ts <;> simp [listEquals, ih]

theorem Node.equals_iff {n m : Node} :
    n.equals m = true ↔ n.kind = m.kind ∧ Slot.listEquals n.slots m.slots = true := by
  obtain ⟨home, schema, slots⟩ := n
  obtain ⟨home', schema', slots'⟩ := m
  simp [equals, kind, Node.schema, Node.slots]

end TreeSchema
