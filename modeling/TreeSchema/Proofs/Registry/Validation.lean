/-
# TreeSchema.Proofs.Registry.Validation — what validation accepts.

Validation looks at two things only: that every kind a schema refers to is registered, and that no
chain of parents goes on for ever.  Both are stated here about the schemas alone, without the index.
-/
import TreeSchema.Proofs.Registry.Chain

namespace TreeSchema

theorem FieldType.target?_eq_some_iff {t : FieldType} {k : String} :
    t.target? = some k ↔ t = .node k := by
  cases t <;> simp [target?]

/-- The kinds a schema refers to are its parent and the kinds among its field types. -/
theorem NodeSchema.mem_references_iff {s : NodeSchema} {k : String} :
    k ∈ s.references ↔ s.parent = some k ∨ ∃ f ∈ s.fields, FieldType.node k ∈ f.types := by
  simp [references, fieldTargets, FieldType.target?_eq_some_iff]

namespace Registry

variable {r : Registry}

theorem dangling?_eq_none_iff {s : NodeSchema} :
    r.dangling? s = none ↔ ∀ k ∈ s.references, r.contains k = true := by
  simp [dangling?]

/-- Validation passes exactly when nothing dangles and no chain of parents outlasts the kinds. -/
theorem validate_eq_ok_iff :
    r.validate = .ok () ↔
      (∀ s ∈ r.schemas, ∀ k ∈ s.references, r.contains k = true) ∧
        ∀ s ∈ r.schemas, r.isEndless s.kind = false := by
  unfold validate
  cases hd : r.schemas.findSome? fun s =>
      (r.dangling? s).map (TreeError.danglingReference s.kind) with
  | some e =>
      obtain ⟨s, hs, he⟩ := List.exists_of_findSome?_eq_some hd
      obtain ⟨k, hk, -⟩ := Option.map_eq_some_iff.1 he
      simp only [reduceCtorEq, false_iff, not_and]
      intro hall
      rw [dangling?_eq_none_iff.2 (hall s hs)] at hk
      exact absurd hk (by simp)
  | none =>
      have hall : ∀ s ∈ r.schemas, ∀ k ∈ s.references, r.contains k = true := by
        intro s hs
        have hnone := List.findSome?_eq_none_iff.1 hd s hs
        exact dangling?_eq_none_iff.1 (Option.map_eq_none_iff.1 hnone)
      cases he : r.schemas.find? fun s => r.isEndless s.kind with
      | some s =>
          have hs := List.mem_of_find?_eq_some he
          have hend := List.find?_some he
          simp only [reduceCtorEq, false_iff, not_and]
          intro _ hfin
          rw [hfin s hs] at hend
          exact Bool.false_ne_true hend
      | none =>
          have hfin : ∀ s ∈ r.schemas, r.isEndless s.kind = false := by
            intro s hs
            simpa using List.find?_eq_none.1 he s hs
          exact iff_of_true rfl ⟨hall, hfin⟩

/-- A coherent registry is valid exactly when its schemas refer to kinds among themselves only and
form no infinite chain of parents. -/
theorem Coherent.validate_eq_ok_iff (h : r.Coherent) :
    r.validate = .ok () ↔
      (∀ s ∈ r.schemas, ∀ k ∈ s.references, k ∈ r.kinds) ∧
        ¬ ∃ chain, ParentChain r.schemas chain := by
  rw [Registry.validate_eq_ok_iff]
  simp only [h.contains_iff_mem_kinds]
  refine and_congr_right fun _ => ?_
  constructor
  · rintro hfin ⟨chain, hchain⟩
    have hend := (h.isEndless_iff _).2 ⟨chain, hchain, rfl⟩
    rw [hfin _ (hchain.declared 0)] at hend
    exact Bool.false_ne_true hend
  · intro hno s _
    by_contra hend
    obtain ⟨chain, hchain, -⟩ := (h.isEndless_iff s.kind).1 (by simpa using hend)
    exact hno ⟨chain, hchain⟩

end Registry

end TreeSchema
