/-
# TreeSchema.Proofs.NodeSchema.Reading — schemas read from what stands for their documents.

A type is written as its bare name and so comes back as whatever the name stands for.  That is the
only thing a schema can lose: its texts, its order and what it leaves out come back as they were.
-/
import TreeSchema.NodeSchema.Document
import TreeSchema.NodeSchema.Reading
import TreeSchema.Proofs.Declarations.Acceptance
import TreeSchema.Proofs.List
import TreeSchema.Proofs.Reading

namespace TreeSchema

open Reading

/-- The type that the name of a type stands for. -/
def FieldType.reread (t : FieldType) : FieldType := .ofName t.name

/-- A field declaration with every type as its name has it. -/
def FieldSpec.reread (f : FieldSpec) : FieldSpec := { f with types := f.types.map FieldType.reread }

/-- A schema with every type as its name has it. -/
def NodeSchema.reread (s : NodeSchema) : NodeSchema := { s with fields := s.fields.map FieldSpec.reread }

section

variable {m : Type → Type} [Monad m] {T : Type} {src : Source m T} {t : T}

theorem readText_of_stands {s : String} (h : src.Stands (.text s) t) : readText src t = pure s := by
  rw [Source.Stands] at h
  exact h.1 "a string"

variable [LawfulMonad m]

/-- A text that is there is read as one that may be absent. -/
theorem option_readText_of_stands {s : String} (h : src.Stands (.text s) t) :
    src.option (readText src) t = pure (some s) := by
  have hread := readText_of_stands h
  rw [Source.Stands] at h
  simp [Source.option, h.2.1, hread]

theorem FieldType.read_of_stands {ty : FieldType} (h : src.Stands (.text ty.name) t) :
    FieldType.read src t = pure ty.reread := by
  rw [FieldType.read, readText_of_stands h, pure_bind]
  rfl

variable [MonadExceptOf Fault m]

theorem Multiplicity.read_of_stands {mult : Multiplicity} (h : src.Stands (.text mult.code) t) :
    Multiplicity.read src t = pure mult := by
  rw [Source.Stands] at h
  have hknown : mult.code ∈ Multiplicity.all.map Multiplicity.code := by
    cases mult <;> decide
  simp [Multiplicity.read, h.2.2 _ hknown]

variable [CatchesThrown m]

/-- **A field declaration comes back** from what stands for its document. -/
theorem FieldSpec.read_of_stands {f : FieldSpec} (h : src.Stands f.toDocument t) :
    FieldSpec.read src t = pure f.reread := by
  have hfinish : FieldSpec.Draft.finish
      ⟨some f.name, some f.reread.types, some f.multiplicity, f.description.map some⟩ =
        .ok f.reread := by
    cases hd : f.description <;> simp [Draft.finish, reread, hd]
  refine readRecord_of_stands h (fun es hes => ?_) hfinish
  -- The entries stand in the order of the parts, so each step names the draft that it leads to.
  rw [← List.append_nil (Document.optional _ _), List.cons_append, List.cons_append,
    List.singleton_append] at hes
  refine readNamed_entry ⟨some f.name, none, none, none⟩ hes rfl rfl (fun t ht => ?_) fun es hes => ?_
  · simp only [readText_of_stands ht, pure_bind]
  refine readNamed_entry ⟨some f.name, some f.reread.types, none, none⟩ hes rfl rfl
    (fun t ht => ?_) fun es hes => ?_
  · simp only [list_of_stands (fun ty _ t ht => FieldType.read_of_stands ht) ht, pure_bind, reread]
  refine readNamed_entry ⟨some f.name, some f.reread.types, some f.multiplicity, none⟩ hes rfl rfl
    (fun t ht => ?_) fun es hes => ?_
  · simp only [Multiplicity.read_of_stands ht, pure_bind]
  refine readNamed_optional
    (fun description =>
      Draft.mk (some f.name) (some f.reread.types) (some f.multiplicity) (description.map some))
    hes rfl rfl (fun s t ht => ?_) fun es hes => ?_
  · simp only [option_readText_of_stands ht, pure_bind, Option.map_some]
  exact readNamed_nil hes

/-- **A schema comes back** from what stands for its document. -/
theorem NodeSchema.read_of_stands {s : NodeSchema} (h : src.Stands s.toDocument t) :
    NodeSchema.read src t = pure s.reread := by
  have hfinish : NodeSchema.Draft.finish
      ⟨some s.kind, s.parent.map some, s.description.map some, some s.reread.fields⟩ =
        .ok s.reread := by
    cases hp : s.parent <;> cases hd : s.description <;> simp [Draft.finish, reread, hp, hd]
  refine readRecord_of_stands h (fun es hes => ?_) hfinish
  rw [List.append_assoc, List.append_assoc, List.singleton_append] at hes
  refine readNamed_entry ⟨some s.kind, none, none, none⟩ hes rfl rfl (fun t ht => ?_) fun es hes => ?_
  · simp only [readText_of_stands ht, pure_bind]
  refine readNamed_optional (fun parent => Draft.mk (some s.kind) (parent.map some) none none) hes
    rfl rfl (fun text t ht => ?_) fun es hes => ?_
  · simp only [option_readText_of_stands ht, pure_bind, Option.map_some]
  refine readNamed_optional
    (fun description => Draft.mk (some s.kind) (s.parent.map some) (description.map some) none)
    hes rfl rfl (fun text t ht => ?_) fun es hes => ?_
  · simp only [option_readText_of_stands ht, pure_bind, Option.map_some]
  refine readNamed_entry
    ⟨some s.kind, s.parent.map some, s.description.map some, some s.reread.fields⟩ hes rfl rfl
    (fun t ht => ?_) fun es hes => ?_
  · simp only [list_of_stands (fun f _ t ht => FieldSpec.read_of_stands ht) ht, pure_bind, reread]
  exact readNamed_nil hes

end

/-! ## Schemas that lose nothing -/

/-- A name is kept by the type it stands for, so reading once more changes nothing. -/
@[simp] theorem FieldType.name_reread (t : FieldType) : t.reread.name = t.name :=
  FieldType.name_ofName t.name

/-- A reference to a kind with a built-in name comes back as the built-in type. -/
theorem FieldType.reread_node_name {b : FieldType} (h : b ∈ builtins) :
    (node b.name).reread = b := by
  simp only [builtins, List.mem_cons, List.not_mem_nil, or_false] at h
  rcases h with rfl | rfl | rfl | rfl | rfl <;> decide

theorem FieldSpec.reread_eq_self_iff {f : FieldSpec} :
    f.reread = f ↔ ∀ k, FieldType.node k ∈ f.types → FieldType.isBuiltinName k = false := by
  have hparts : f.reread = f ↔ f.types.map FieldType.reread = f.types := by
    cases f
    simp [reread]
  rw [hparts, List.map_eq_self_iff]
  constructor
  · exact fun h k hk => (FieldType.ofName_name_eq_iff (.node k)).1 (h _ hk) k rfl
  · exact fun h t ht => (FieldType.ofName_name_eq_iff t).2 fun k hk => h k (hk ▸ ht)

theorem NodeSchema.reread_eq_self_iff {s : NodeSchema} :
    s.reread = s ↔ ∀ f ∈ s.fields, f.reread = f := by
  have hparts : s.reread = s ↔ s.fields.map FieldSpec.reread = s.fields := by
    cases s
    simp [reread]
  rw [hparts, List.map_eq_self_iff]

/-- A schema without references to kinds that have built-in names is what its names say. -/
theorem NodeSchema.reread_eq_self {s : NodeSchema}
    (h : ∀ f ∈ s.fields, ∀ k, FieldType.node k ∈ f.types → FieldType.isBuiltinName k = false) :
    s.reread = s :=
  NodeSchema.reread_eq_self_iff.2 fun f hf => FieldSpec.reread_eq_self_iff.2 (h f hf)

/-- No schema of an acceptable set refers to a kind with a built-in name, for none is declared. -/
theorem Declarations.Acceptable.reread_eq_self {d : Declarations} (h : d.Acceptable) :
    ∀ s ∈ d.nodes, s.reread = s := by
  intro s hs
  refine NodeSchema.reread_eq_self fun f hf k hk => ?_
  obtain ⟨t, ht, rfl⟩ := List.mem_map.mp (h.target_declared s hs f hf k hk)
  exact (FieldType.isBuiltinName_eq_false_iff t.kind).mpr (h.kind_not_builtin t ht)

end TreeSchema
