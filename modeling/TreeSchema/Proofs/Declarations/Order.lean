/-
# TreeSchema.Proofs.Declarations.Order — the order of declarations is free.

Registration goes through the schemas one by one, keeps places in an index and starts its walks up the
parent chains in the order of the list.  None of that shows afterwards: whether a set is acceptable,
what a kind is looked up as and which kinds extend which depend on the schemas as a set.  So does the
admission of values, which asks a registry about kinds only.
-/
import TreeSchema.Admission
import TreeSchema.Proofs.Declarations.Acceptance

namespace TreeSchema

/-! ## Acceptance -/

/-- A chain through some schemas is one through more. -/
theorem ParentChain.mono {ss ts : List NodeSchema} {chain : Nat → NodeSchema}
    (h : ParentChain ss chain) (hsub : ∀ s ∈ ss, s ∈ ts) : ParentChain ts chain :=
  ⟨fun i => hsub _ (h.declared i), h.parent⟩

/-- An acceptable set stays acceptable in any order. -/
theorem Declarations.Acceptable.of_perm {d d' : Declarations} (h : d.Acceptable)
    (hp : d.nodes.Perm d'.nodes) : d'.Acceptable := by
  have hback : ∀ s ∈ d'.nodes, s ∈ d.nodes := fun s hs => hp.mem_iff.2 hs
  have hkinds : d.kinds.Perm d'.kinds := hp.map NodeSchema.kind
  exact
    { isIdentifier_kind := fun s hs => h.isIdentifier_kind s (hback s hs)
      kind_not_builtin := fun s hs => h.kind_not_builtin s (hback s hs)
      kinds_nodup := hkinds.nodup_iff.1 h.kinds_nodup
      isIdentifier_name := fun s hs => h.isIdentifier_name s (hback s hs)
      names_nodup := fun s hs => h.names_nodup s (hback s hs)
      types_ne_nil := fun s hs => h.types_ne_nil s (hback s hs)
      parent_declared := fun s hs p hpar =>
        hkinds.mem_iff.1 (h.parent_declared s (hback s hs) p hpar)
      target_declared := fun s hs f hf k hk =>
        hkinds.mem_iff.1 (h.target_declared s (hback s hs) f hf k hk)
      chains_end := fun ⟨chain, hchain⟩ => h.chains_end ⟨chain, hchain.mono hback⟩ }

/-! ## Lookups and the hierarchy -/

namespace Registry

variable {r r' : Registry}

namespace Coherent

theorem get?_eq_of_perm (h : r.Coherent) (h' : r'.Coherent) (hp : r.schemas.Perm r'.schemas)
    (k : String) : r.get? k = r'.get? k := by
  apply Option.ext
  intro s
  rw [h.get?_eq_some_iff, h'.get?_eq_some_iff, hp.mem_iff]

theorem contains_eq_of_perm (h : r.Coherent) (h' : r'.Coherent) (hp : r.schemas.Perm r'.schemas)
    (k : String) : r.contains k = r'.contains k := by
  rw [Bool.eq_iff_iff, h.contains_iff, h'.contains_iff]
  simp only [hp.mem_iff]

end Coherent

/-- The walk up from a kind asks a registry for schemas by kind and for nothing else. -/
theorem isAWithin_congr (h : ∀ k, r.get? k = r'.get? k) (a : String) (n : Nat) (k : String) :
    r.isAWithin a n k = r'.isAWithin a n k := by
  induction n generalizing k with
  | zero => rfl
  | succ n ih =>
      have hparent : r.parent? k = r'.parent? k := by rw [parent?, parent?, h]
      rw [isAWithin, isAWithin, hparent]
      cases r'.parent? k with
      | none => rfl
      | some p => simp only [ih]

theorem isA_congr (h : ∀ k, r.get? k = r'.get? k) (hsize : r.size = r'.size) (k a : String) :
    r.isA k a = r'.isA k a := by
  rw [isA, isA, hsize]
  exact isAWithin_congr h a _ k

end Registry

/-! ## Admission -/

section

variable {home home' : Sealed}

/-- A value that is no node is admitted for its own sake, whatever the registry. -/
theorem FieldType.admits_of_not_node {v : Value} (hv : ∀ n, v ≠ .node n) (t : FieldType) :
    t.admits home v = t.admitsScalar v := by
  cases t <;> cases v <;> first | rfl | exact absurd rfl (hv _)

/-- Nodes of one kind are admitted alike by registries with one hierarchy, each of its own. -/
theorem FieldType.admits_node_congr (h : ∀ k a, home.registry.isA k a = home'.registry.isA k a)
    {n n' : Node} (hn : n.home = home) (hn' : n'.home = home') (hkind : n.kind = n'.kind)
    (t : FieldType) : t.admits home (.node n) = t.admits home' (.node n') := by
  cases t with
  | node k => simp [FieldType.admits, hn, hn', hkind, h]
  | _ => rfl

theorem FieldSpec.admits_congr {f : FieldSpec} {v v' : Value}
    (h : ∀ t ∈ f.types, FieldType.admits home t v = FieldType.admits home' t v') :
    f.admits home v = f.admits home' v' := by
  rw [Bool.eq_iff_iff, FieldSpec.admits, FieldSpec.admits, List.any_eq_true, List.any_eq_true]
  exact exists_congr fun t => and_congr_right fun ht => by rw [h t ht]

end

namespace Declarations

/-- **The order of declarations matters neither for validity nor for meaning.**  Of two orders of the
same schemas either both become registries or neither does.  The two registries then agree on every
lookup, on their size and on which kinds extend which, and sealed they admit the same scalars, and
nodes of the same kinds of their own. -/
theorem toRegistry_agree_of_perm {d d' : Declarations} (hp : d.nodes.Perm d'.nodes) :
    ((∃ r, d.toRegistry = .ok r) ↔ ∃ r', d'.toRegistry = .ok r') ∧
      ∀ r r', d.toRegistry = .ok r → d'.toRegistry = .ok r' →
        (∀ k, r.get? k = r'.get? k) ∧ (∀ k, r.contains k = r'.contains k) ∧ r.size = r'.size ∧
          (∀ k a, r.isA k a = r'.isA k a) ∧
            ∀ home home' : Sealed, home.registry = r → home'.registry = r' → ∀ f : FieldSpec,
              (∀ v, (∀ n, v ≠ .node n) → f.admits home v = f.admits home' v) ∧
                ∀ n n' : Node, n.home = home → n'.home = home' → n.kind = n'.kind →
                  f.admits home (.node n) = f.admits home' (.node n') := by
  constructor
  · rw [exists_toRegistry_iff, exists_toRegistry_iff]
    exact ⟨fun h => h.of_perm hp, fun h => h.of_perm hp.symm⟩
  · intro r r' hr hr'
    obtain ⟨hgrown, hnodes⟩ := schemas_of_toRegistry hr
    obtain ⟨hgrown', hnodes'⟩ := schemas_of_toRegistry hr'
    have hschemas : r.schemas.Perm r'.schemas := by rwa [hnodes, hnodes']
    have hget := hgrown.coherent.get?_eq_of_perm hgrown'.coherent hschemas
    have hsize : r.size = r'.size := hschemas.length_eq
    have hisA := Registry.isA_congr hget hsize
    refine ⟨hget, hgrown.coherent.contains_eq_of_perm hgrown'.coherent hschemas, hsize, hisA, ?_⟩
    rintro home home' rfl rfl f
    constructor
    · intro v hv
      refine FieldSpec.admits_congr fun t _ => ?_
      rw [FieldType.admits_of_not_node hv, FieldType.admits_of_not_node hv]
    · intro n n' hn hn' hkind
      exact FieldSpec.admits_congr fun t _ => FieldType.admits_node_congr hisA hn hn' hkind t

/-- Names extend expressions, and are declared first. -/
def namesFirst : Declarations :=
  ⟨"1.0", none,
    [⟨"Name", some "expr", none, [⟨"id", [.identifier], .needed, none⟩]⟩,
      ⟨"expr", none, none, []⟩]⟩

/-- The same kinds the other way round. -/
def namesLast : Declarations := { namesFirst with nodes := namesFirst.nodes.reverse }

theorem toRegistry_agree_namesFirst :
    namesFirst.nodes.Perm namesLast.nodes ∧ namesFirst.nodes ≠ namesLast.nodes ∧
      ∃ r r', namesFirst.toRegistry = .ok r ∧ namesLast.toRegistry = .ok r' ∧
        (∀ k, r.get? k = r'.get? k) ∧ ∀ k a, r.isA k a = r'.isA k a := by
  have hp : namesFirst.nodes.Perm namesLast.nodes := (List.reverse_perm _).symm
  refine ⟨hp, by decide, _, _, rfl, rfl, ?_⟩
  obtain ⟨hget, -, -, hisA, -⟩ := (toRegistry_agree_of_perm hp).2 _ _ rfl rfl
  exact ⟨hget, hisA⟩

end Declarations

end TreeSchema
