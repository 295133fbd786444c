/-
# TreeSchema.Proofs.Node.Containment — what lies inside a value and inside a node.

A slot holds values, a value may be a sequence of values, and a value that is a node has slots of its
own.  `Value.Reaches` follows all of these steps to any depth.  `Node.Contains` starts inside a node,
so that a node does not contain itself for free.
-/
import TreeSchema.Value

namespace TreeSchema

/-- The values that a field holds. -/
def Slot.values : Slot → List Value
  | unset => []
  | single v => [v]
  | many items => items

/-- A node lies in a value: it is the value, or it lies in an element of the sequence that the value
is, or in what a slot of the node that the value is holds. -/
inductive Value.Reaches : Value → Node → Prop
  | here (n : Node) : Reaches (.node n) n
  | element {items : List Value} {v : Value} {m : Node} :
      v ∈ items → Reaches v m → Reaches (.seq items) m
  | slot {n m : Node} {s : Slot} {v : Value} :
      s ∈ n.slots → v ∈ s.values → Reaches v m → Reaches (.node n) m

/-- A value occurs in a value: it is the value, or it occurs in an element of the sequence or in what a
slot of the node holds. -/
inductive Value.Holds : Value → Value → Prop
  | here (v : Value) : Holds v v
  | element {items : List Value} {v u : Value} :
      v ∈ items → Holds v u → Holds (.seq items) u
  | slot {n : Node} {s : Slot} {v u : Value} :
      s ∈ n.slots → v ∈ s.values → Holds v u → Holds (.node n) u

/-- What a slot of a node holds is smaller than the node. -/
theorem Node.sizeOf_lt_of_mem_slots {n : Node} {s : Slot} {v : Value} (hs : s ∈ n.slots)
    (hv : v ∈ s.values) : sizeOf v < sizeOf n := by
  obtain ⟨home, schema, slots⟩ := n
  have hslots : sizeOf s < sizeOf slots := List.sizeOf_lt_of_mem hs
  have hvalue : sizeOf v < sizeOf s := by
    cases s with
    | unset => simp [Slot.values] at hv
    | single w =>
        obtain rfl : v = w := by simpa [Slot.values] using hv
        simp
    | many items =>
        have hitem : sizeOf v < sizeOf items := List.sizeOf_lt_of_mem hv
        simp
        omega
  simp
  omega

/-- The values that a value holds directly: the elements of a sequence, or what the slots of a node
hold. -/
def Value.parts : Value → List Value
  | seq items => items
  | node n => n.slots.flatMap Slot.values
  | _ => []

/-- Values are finite: what holds of a value as soon as it holds of its parts holds of all values. -/
@[elab_as_elim]
theorem Value.parts_induction {motive : Value → Prop}
    (step : ∀ v, (∀ u ∈ v.parts, motive u) → motive v) (v : Value) : motive v := by
  refine step v fun u hu => parts_induction step u
termination_by sizeOf v
decreasing_by
  cases v with
  | seq items =>
      have hsize : sizeOf u < sizeOf items := List.sizeOf_lt_of_mem hu
      simp
      omega
  | node n =>
      obtain ⟨s, hs, hv⟩ := List.mem_flatMap.1 hu
      have hsize := Node.sizeOf_lt_of_mem_slots hs hv
      simp
      omega
  | _ => simp [parts] at hu

/-- A node lies strictly inside another, through single slots, sequence slots and nested sequences,
at any depth. -/
def Node.Contains (n m : Node) : Prop :=
  ∃ s ∈ n.slots, ∃ v ∈ s.values, v.Reaches m

namespace Value

theorem reaches_node_iff {n m : Node} : (node n).Reaches m ↔ m = n ∨ n.Contains m := by
  constructor
  · intro h
    cases h with
    | here => exact Or.inl rfl
    | slot hs hv hm => exact Or.inr ⟨_, hs, _, hv, hm⟩
  · rintro (rfl | ⟨s, hs, v, hv, hm⟩)
    · exact .here m
    · exact .slot hs hv hm

/-- What occurs in a value is the value itself or occurs in one of its parts. -/
theorem holds_iff {v u : Value} : v.Holds u ↔ u = v ∨ ∃ p ∈ v.parts, p.Holds u := by
  constructor
  · rintro (_ | ⟨hmem, hu⟩ | ⟨hs, hmem, hu⟩)
    · exact Or.inl rfl
    · exact Or.inr ⟨_, hmem, hu⟩
    · exact Or.inr ⟨_, List.mem_flatMap.2 ⟨_, hs, hmem⟩, hu⟩
  · rintro (rfl | ⟨p, hp, hu⟩)
    · exact .here u
    · cases v with
      | seq items => exact .element hp hu
      | node n =>
          obtain ⟨s, hs, hmem⟩ := List.mem_flatMap.1 hp
          exact .slot hs hmem hu
      | _ => simp [parts] at hp

/-- Inside what lies in a value is in the value. -/
theorem Reaches.trans {v : Value} {n m : Node} (hv : v.Reaches n) (hn : (node n).Reaches m) :
    v.Reaches m := by
  induction hv with
  | here => exact hn
  | element hmem _ ih => exact .element hmem (ih hn)
  | slot hs hmem _ ih => exact .slot hs hmem (ih hn)

end Value

theorem Node.Contains.trans {n m k : Node} (hm : n.Contains m) (hk : m.Contains k) :
    n.Contains k := by
  obtain ⟨s, hs, v, hv, hreach⟩ := hm
  exact ⟨s, hs, v, hv, hreach.trans (Value.reaches_node_iff.2 (Or.inr hk))⟩

end TreeSchema
