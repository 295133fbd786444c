/-
# TreeSchema.Proofs.Declarations.Acceptance — which sets of declarations become a registry.

`Acceptable` lists the conditions in terms of the declared schemas alone: names, duplicates, types,
references and parent chains.  A set becomes a registry exactly when it meets them, whatever order
its schemas come in, and the registry then holds the declared schemas and finds them by kind.
-/
import TreeSchema.Declarations
import TreeSchema.Proofs.Registry.Validation

namespace TreeSchema

/-- The built-in names are these five. -/
theorem FieldType.isBuiltinName_eq_false_iff (name : String) :
    isBuiltinName name = false ↔
      name ∉ ["identifier", "singleton", "text", "int", "float"] := by
  have hname : ∀ t : FieldType, ¬ decide (t.name = name) = true ↔ name ≠ t.name := by
    intro t
    rw [decide_eq_true_iff, ne_comm]
  rw [isBuiltinName, List.any_eq_false]
  simp only [hname]
  simp [builtins, FieldType.name]

namespace Declarations

/-- What a set of declarations must satisfy to become a registry. -/
structure Acceptable (d : Declarations) : Prop where
  isIdentifier_kind : ∀ s ∈ d.nodes, isIdentifier s.kind = true
  kind_not_builtin :
    ∀ s ∈ d.nodes, s.kind ∉ ["identifier", "singleton", "text", "int", "float"]
  kinds_nodup : d.kinds.Nodup
  isIdentifier_name : ∀ s ∈ d.nodes, ∀ f ∈ s.fields, isIdentifier f.name = true
  names_nodup : ∀ s ∈ d.nodes, s.fieldNames.Nodup
  types_ne_nil : ∀ s ∈ d.nodes, ∀ f ∈ s.fields, f.types ≠ []
  parent_declared : ∀ s ∈ d.nodes, ∀ p, s.parent = some p → p ∈ d.kinds
  target_declared :
    ∀ s ∈ d.nodes, ∀ f ∈ s.fields, ∀ k, FieldType.node k ∈ f.types → k ∈ d.kinds
  /-- No kind has an infinite chain of parents. -/
  chains_end : ¬ ∃ chain, ParentChain d.nodes chain

/-- The schemas of an acceptable set are proper: a declared parent is an identifier, since it is the
kind of a schema. -/
theorem Acceptable.proper {d : Declarations} (h : d.Acceptable) :
    ∀ s ∈ d.nodes, s.Proper := by
  intro s hs
  refine ⟨h.isIdentifier_kind s hs, ?_, ?_, h.isIdentifier_name s hs, h.names_nodup s hs,
    h.types_ne_nil s hs⟩
  · exact (FieldType.isBuiltinName_eq_false_iff s.kind).2 (h.kind_not_builtin s hs)
  · intro p hp
    obtain ⟨t, ht, rfl⟩ := List.mem_map.1 (h.parent_declared s hs p hp)
    exact h.isIdentifier_kind t ht

/-- Acceptability, split as registration and validation split it. -/
theorem acceptable_iff (d : Declarations) :
    d.Acceptable ↔
      ((∀ s ∈ d.nodes, s.Proper) ∧ d.kinds.Nodup) ∧
        (∀ s ∈ d.nodes, ∀ k ∈ s.references, k ∈ d.kinds) ∧
          ¬ ∃ chain, ParentChain d.nodes chain := by
  constructor
  · intro h
    refine ⟨⟨h.proper, h.kinds_nodup⟩, ?_, h.chains_end⟩
    intro s hs k hk
    rcases NodeSchema.mem_references_iff.1 hk with hp | ⟨f, hf, ht⟩
    · exact h.parent_declared s hs k hp
    · exact h.target_declared s hs f hf k ht
  · rintro ⟨⟨hproper, hnd⟩, href, hend⟩
    exact
      { isIdentifier_kind := fun s hs => (hproper s hs).isIdentifier_kind
        kind_not_builtin := fun s hs =>
          (FieldType.isBuiltinName_eq_false_iff s.kind).1 (hproper s hs).kind_not_builtin
        kinds_nodup := hnd
        isIdentifier_name := fun s hs => (hproper s hs).isIdentifier_name
        names_nodup := fun s hs => (hproper s hs).names_nodup
        types_ne_nil := fun s hs => (hproper s hs).types_ne_nil
        parent_declared := fun s hs p hp =>
          href s hs p (NodeSchema.mem_references_iff.2 (Or.inl hp))
        target_declared := fun s hs f hf k hk =>
          href s hs k (NodeSchema.mem_references_iff.2 (Or.inr ⟨f, hf, hk⟩))
        chains_end := hend }

/-- A set becomes a registry when all its schemas register and the result validates. -/
theorem toRegistry_eq_ok_iff {d : Declarations} {r : Registry} :
    d.toRegistry = .ok r ↔
      Registry.empty.registerAll d.nodes = .ok r ∧ r.validate = .ok () := by
  unfold toRegistry
  cases hr : Registry.empty.registerAll d.nodes with
  | error e => simp
  | ok r₁ =>
      cases hv : r₁.validate with
      | error e =>
          refine iff_of_false (by simp [hv]) ?_
          rintro ⟨hsame, hok⟩
          obtain rfl := Except.ok.inj hsame
          simp [hv] at hok
      | ok u =>
          simp only [hv, Except.ok.injEq]
          constructor
          · rintro rfl
            exact ⟨rfl, hv⟩
          · exact And.left

/-- What a set becomes is grown by registering and holds the declared schemas in their order. -/
theorem schemas_of_toRegistry {d : Declarations} {r : Registry} (h : d.toRegistry = .ok r) :
    r.Grown ∧ r.schemas = d.nodes := by
  have hreg := (toRegistry_eq_ok_iff.1 h).1
  refine ⟨Registry.Grown.empty.registerAll hreg, ?_⟩
  rw [Registry.schemas_of_registerAll hreg]
  rfl

/-- Registering takes exactly the sets of proper schemas of different kinds. -/
theorem exists_registerAll_nodes_iff (d : Declarations) :
    (∃ r, Registry.empty.registerAll d.nodes = .ok r) ↔
      (∀ s ∈ d.nodes, s.Proper) ∧ d.kinds.Nodup := by
  rw [Registry.exists_registerAll_iff Registry.coherent_empty]
  have hnew : ∀ s ∈ d.nodes, Registry.empty.contains s.kind = false := by
    intro s _
    rfl
  constructor
  · rintro ⟨hproper, hnd, -⟩
    exact ⟨hproper, hnd⟩
  · rintro ⟨hproper, hnd⟩
    exact ⟨hproper, hnd, hnew⟩

/-- A set becomes a registry exactly when it is acceptable. -/
theorem exists_toRegistry_iff (d : Declarations) :
    (∃ r, d.toRegistry = .ok r) ↔ d.Acceptable := by
  rw [acceptable_iff, ← exists_registerAll_nodes_iff]
  constructor
  · rintro ⟨r, hr⟩
    obtain ⟨hreg, hval⟩ := toRegistry_eq_ok_iff.1 hr
    obtain ⟨hgrown, hnodes⟩ := schemas_of_toRegistry hr
    have hjudged := hgrown.coherent.validate_eq_ok_iff.1 hval
    rw [Registry.kinds, hnodes] at hjudged
    exact ⟨⟨r, hreg⟩, hjudged⟩
  · rintro ⟨⟨r, hreg⟩, hjudged⟩
    have hgrown := Registry.Grown.empty.registerAll hreg
    have hnodes : r.schemas = d.nodes := Registry.schemas_of_registerAll hreg
    refine ⟨r, toRegistry_eq_ok_iff.2 ⟨hreg, hgrown.coherent.validate_eq_ok_iff.2 ?_⟩⟩
    rw [Registry.kinds, hnodes]
    exact hjudged

/-- **A set of declarations becomes a registry exactly when it is acceptable**, and the registry is
then the declared set: the same schemas in the same order, found by kind as in the set. -/
theorem toRegistry_exact (d : Declarations) :
    ((∃ r, d.toRegistry = .ok r) ↔ d.Acceptable) ∧
      ∀ r, d.toRegistry = .ok r → r.schemas = d.nodes ∧ ∀ k, r.get? k = d.get? k := by
  refine ⟨exists_toRegistry_iff d, ?_⟩
  intro r hr
  obtain ⟨hgrown, hnodes⟩ := schemas_of_toRegistry hr
  refine ⟨hnodes, ?_⟩
  intro k
  rw [hgrown.coherent.get?_eq_find? k, hnodes, get?]

end Declarations

end TreeSchema
