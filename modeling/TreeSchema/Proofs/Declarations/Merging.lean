/-
# TreeSchema.Proofs.Declarations.Merging — sets of declarations put together.

References of an acceptable set stay inside it, so a chain of parents that starts in one of two such
sets never crosses to the other.  Together they are therefore acceptable as soon as no kind is declared
twice, and every kind keeps its schema and its ancestors, although the walk up may now take more steps
than before.  Otherwise the first kind of the second set that the first set declares too is refused,
before anything else can be.
-/
import TreeSchema.Declarations.Files
import TreeSchema.Proofs.Declarations.Acceptance
import TreeSchema.Proofs.Registry.Hierarchy

namespace TreeSchema

/-! ## A registry inside a larger one -/

namespace Registry

variable {r r' : Registry}

namespace Coherent

/-- A kind keeps its schema in a registry that holds more. -/
theorem get?_eq_of_subset (h : r.Coherent) (h' : r'.Coherent)
    (hsub : ∀ s ∈ r.schemas, s ∈ r'.schemas) {k : String} (hk : r.contains k = true) :
    r'.get? k = r.get? k := by
  obtain ⟨s, hs, rfl⟩ := (h.contains_iff k).1 hk
  rw [h.get?_eq_some_iff.2 ⟨hs, rfl⟩, h'.get?_eq_some_iff.2 ⟨hsub s hs, rfl⟩]

/-- The way up from a kind of a valid registry stays in the registry, and so is the same in one that
holds more. -/
theorem up_eq_of_subset (h : r.Coherent) (hvalid : r.validate = .ok ()) (h' : r'.Coherent)
    (hsub : ∀ s ∈ r.schemas, s ∈ r'.schemas) (n : Nat) {k : String} (hk : r.contains k = true) :
    r'.up n k = r.up n k := by
  induction n generalizing k with
  | zero => rfl
  | succ n ih =>
      have hparent : r'.parent? k = r.parent? k := by
        rw [parent?, parent?, h.get?_eq_of_subset h' hsub hk]
      rw [up, up, hparent]
      cases hp : r.parent? k with
      | none => rfl
      | some p => exact ih (h.contains_parent hvalid hp)

/-- A kind keeps its ancestors in a registry that holds more. -/
theorem isA_eq_of_subset (h : r.Coherent) (hvalid : r.validate = .ok ()) (h' : r'.Coherent)
    (hsub : ∀ s ∈ r.schemas, s ∈ r'.schemas) {k : String} (hk : r.contains k = true) (a : String) :
    r'.isA k a = r.isA k a := by
  rw [Bool.eq_iff_iff, h.isA_iff, h'.isA_iff]
  simp only [h.up_eq_of_subset hvalid h' hsub _ hk]

end Coherent

/-! ## Registering more schemas -/

theorem registerAll_append (r : Registry) (ss ts : List NodeSchema) :
    r.registerAll (ss ++ ts) = (r.registerAll ss).bind fun r' => r'.registerAll ts := by
  induction ss generalizing r with
  | nil => rfl
  | cons s rest ih =>
      rw [List.cons_append, registerAll, registerAll]
      cases r.register s with
      | error e => rfl
      | ok r' => exact ih r'

/-- A proper schema is refused only because its kind is taken, and then for that. -/
theorem register_eq_duplicateKind {s : NodeSchema} (hs : s.Proper) (hold : r.contains s.kind = true) :
    r.register s = .error (.duplicateKind s.kind) := by
  have hfault : r.fault? s = some (.duplicateKind s.kind) := by
    unfold fault?
    rw [if_neg (by simp [hs.isIdentifier_kind, hs.kind_not_builtin]), if_pos hold]
  rw [register, hfault]

/-- Proper schemas of different kinds are registered up to the first whose kind is taken. -/
theorem Grown.registerAll_eq_duplicateKind (h : r.Grown) {before after : List NodeSchema}
    {s : NodeSchema} (hproper : ∀ t ∈ before ++ s :: after, t.Proper)
    (hnd : ((before ++ s :: after).map NodeSchema.kind).Nodup)
    (hnew : ∀ t ∈ before, r.contains t.kind = false) (hold : r.contains s.kind = true) :
    r.registerAll (before ++ s :: after) = .error (.duplicateKind s.kind) := by
  have hbefore : (before.map NodeSchema.kind).Nodup := by
    rw [List.map_append] at hnd
    exact hnd.of_append_left
  obtain ⟨r', hr'⟩ := (exists_registerAll_iff h.coherent before).2
    ⟨fun t ht => hproper t (List.mem_append_left _ ht), hbefore, hnew⟩
  have hstill : r'.contains s.kind = true := by
    obtain ⟨t, ht, htk⟩ := (h.coherent.contains_iff _).1 hold
    refine ((h.registerAll hr').coherent.contains_iff _).2 ⟨t, ?_, htk⟩
    rw [schemas_of_registerAll hr']
    exact List.mem_append_left _ ht
  have hs : s.Proper := hproper s (List.mem_append_right _ List.mem_cons_self)
  rw [registerAll_append, hr', Except.bind, Registry.registerAll,
    register_eq_duplicateKind hs hstill]

end Registry

namespace Declarations

variable {d₁ d₂ : Declarations} {r r₁ r₂ : Registry}

/-! ## Two acceptable sets -/

theorem registry_eq_ok_iff {d : Declarations} : d.registry = .ok r ↔ d.toRegistry = .ok r := by
  unfold registry
  cases d.toRegistry <;> simp

theorem kinds_merge (d₁ d₂ : Declarations) : (d₁.merge d₂).kinds = d₁.kinds ++ d₂.kinds :=
  List.map_append

/-- A chain of parents that starts in an acceptable set stays there, beside a set of other kinds. -/
theorem Acceptable.chain_stays (h : d₁.Acceptable) {ss : List NodeSchema}
    (hother : ∀ s ∈ ss, s ∉ d₁.nodes → s.kind ∉ d₁.kinds) {chain : Nat → NodeSchema}
    (hchain : ParentChain ss chain) (hstart : chain 0 ∈ d₁.nodes) (n : Nat) : chain n ∈ d₁.nodes := by
  induction n with
  | zero => exact hstart
  | succ n ih =>
      have hkind : (chain (n + 1)).kind ∈ d₁.kinds :=
        h.parent_declared _ ih _ (hchain.parent n)
      by_contra hout
      exact hother _ (hchain.declared (n + 1)) hout hkind

/-- Two acceptable sets without a common kind are acceptable together. -/
theorem Acceptable.merge (h₁ : d₁.Acceptable) (h₂ : d₂.Acceptable)
    (hdisjoint : ∀ k ∈ d₁.kinds, k ∉ d₂.kinds) : (d₁.merge d₂).Acceptable := by
  have hnodes : ∀ {P : NodeSchema → Prop}, (∀ s ∈ d₁.nodes, P s) → (∀ s ∈ d₂.nodes, P s) →
      ∀ s ∈ (d₁.merge d₂).nodes, P s :=
    fun h h' => List.forall_mem_append.2 ⟨h, h'⟩
  have hleft : ∀ k ∈ d₁.kinds, k ∈ (d₁.merge d₂).kinds := fun k hk => by
    rw [kinds_merge]
    exact List.mem_append_left _ hk
  have hright : ∀ k ∈ d₂.kinds, k ∈ (d₁.merge d₂).kinds := fun k hk => by
    rw [kinds_merge]
    exact List.mem_append_right _ hk
  have hkind : ∀ {d : Declarations} {s : NodeSchema}, s ∈ d.nodes → s.kind ∈ d.kinds :=
    fun hs => List.mem_map_of_mem hs
  refine
    { isIdentifier_kind := hnodes h₁.isIdentifier_kind h₂.isIdentifier_kind
      kind_not_builtin := hnodes h₁.kind_not_builtin h₂.kind_not_builtin
      kinds_nodup := ?_
      isIdentifier_name := hnodes h₁.isIdentifier_name h₂.isIdentifier_name
      names_nodup := hnodes h₁.names_nodup h₂.names_nodup
      types_ne_nil := hnodes h₁.types_ne_nil h₂.types_ne_nil
      parent_declared := hnodes (fun s hs p hp => hleft p (h₁.parent_declared s hs p hp))
        fun s hs p hp => hright p (h₂.parent_declared s hs p hp)
      target_declared := hnodes (fun s hs f hf k hk => hleft k (h₁.target_declared s hs f hf k hk))
        fun s hs f hf k hk => hright k (h₂.target_declared s hs f hf k hk)
      chains_end := ?_ }
  · rw [kinds_merge, List.nodup_append']
    exact ⟨h₁.kinds_nodup, h₂.kinds_nodup, fun k hk => hdisjoint k hk⟩
  · rintro ⟨chain, hchain⟩
    -- the chain stays in the set that it starts in
    have hsides : ∀ s ∈ (d₁.merge d₂).nodes, s ∈ d₁.nodes ∨ s ∈ d₂.nodes := fun s hs =>
      List.mem_append.1 hs
    rcases hsides _ (hchain.declared 0) with hstart | hstart
    · refine h₁.chains_end ⟨chain, h₁.chain_stays (fun s hs hout hin => ?_) hchain hstart,
        hchain.parent⟩
      exact hdisjoint _ hin (hkind ((hsides s hs).resolve_left hout))
    · refine h₂.chains_end ⟨chain, h₂.chain_stays (fun s hs hout hin => ?_) hchain hstart,
        hchain.parent⟩
      exact hdisjoint _ (hkind ((hsides s hs).resolve_right hout)) hin

/-- A registry of more schemas answers about the kinds of a set as the registry of the set does. -/
theorem answers_alike {d d' : Declarations} {r r' : Registry} (h : d.toRegistry = .ok r)
    (h' : d'.toRegistry = .ok r') (hsub : ∀ s ∈ d.nodes, s ∈ d'.nodes) {k : String}
    (hk : k ∈ d.kinds) : r'.get? k = r.get? k ∧ ∀ a, r'.isA k a = r.isA k a := by
  obtain ⟨hgrown, hnodes⟩ := schemas_of_toRegistry h
  obtain ⟨hgrown', hnodes'⟩ := schemas_of_toRegistry h'
  have hvalid := (toRegistry_eq_ok_iff.1 h).2
  have hcontains : r.contains k = true := by
    obtain ⟨s, hs, rfl⟩ := List.mem_map.1 hk
    exact (hgrown.coherent.contains_iff _).2 ⟨s, by rwa [hnodes], rfl⟩
  rw [← hnodes, ← hnodes'] at hsub
  exact ⟨hgrown.coherent.get?_eq_of_subset hgrown'.coherent hsub hcontains,
    hgrown.coherent.isA_eq_of_subset hvalid hgrown'.coherent hsub hcontains⟩

/-- A kind that two acceptable sets share is refused where the second set declares it, and the first
such kind is the one that is reported. -/
theorem toRegistry_merge_of_shared (h₁ : d₁.toRegistry = .ok r₁) (h₂ : d₂.Acceptable) {k : String}
    (hk : d₂.kinds.find? (fun k => decide (k ∈ d₁.kinds)) = some k) :
    (d₁.merge d₂).toRegistry = .error (.duplicateKind k) := by
  obtain ⟨hgrown, hnodes⟩ := schemas_of_toRegistry h₁
  have hcontains : ∀ k, r₁.contains k = decide (k ∈ d₁.kinds) := by
    intro k
    rw [Bool.eq_iff_iff, hgrown.coherent.contains_iff, hnodes, decide_eq_true_iff, kinds,
      List.mem_map]
  have hkinds : d₂.kinds = d₂.nodes.map NodeSchema.kind := rfl
  rw [hkinds, List.find?_map] at hk
  obtain ⟨s, hs, rfl⟩ := Option.map_eq_some_iff.1 hk
  obtain ⟨hshared, before, after, hsplit, hnew⟩ := List.find?_eq_some_iff_append.1 hs
  have hproper := h₂.proper
  have hnd := h₂.kinds_nodup
  rw [hsplit] at hproper
  rw [hkinds, hsplit] at hnd
  have hrefused := hgrown.registerAll_eq_duplicateKind hproper hnd
    (fun t ht => by simpa [hcontains] using hnew t ht) (by simpa [hcontains] using hshared)
  have hregistered := (toRegistry_eq_ok_iff.1 h₁).1
  rw [toRegistry, Declarations.merge, Registry.registerAll_append, hregistered, hsplit]
  simp only [Except.bind, hrefused]

/-- **Acceptable sets of declarations compose.**  Without a common kind they are accepted together, and
every kind has the schema and the ancestors that it has in the registry of its own set.  With a common
kind they are refused, because of the first kind of the second set that the first set declares too. -/
theorem merge_compositional (h₁ : d₁.registry = .ok r₁) (h₂ : d₂.registry = .ok r₂) :
    ((∀ k ∈ d₁.kinds, k ∉ d₂.kinds) →
      ∃ r, (d₁.merge d₂).registry = .ok r ∧
        (∀ k ∈ d₁.kinds, r.get? k = r₁.get? k ∧ ∀ a, r.isA k a = r₁.isA k a) ∧
          ∀ k ∈ d₂.kinds, r.get? k = r₂.get? k ∧ ∀ a, r.isA k a = r₂.isA k a) ∧
      ((∃ k ∈ d₁.kinds, k ∈ d₂.kinds) →
        ∃ k, d₂.kinds.find? (fun k => decide (k ∈ d₁.kinds)) = some k ∧
          (d₁.merge d₂).registry = .error (.invalid (.duplicateKind k))) := by
  rw [registry_eq_ok_iff] at h₁ h₂
  have hacc₁ := (exists_toRegistry_iff d₁).1 ⟨r₁, h₁⟩
  have hacc₂ := (exists_toRegistry_iff d₂).1 ⟨r₂, h₂⟩
  constructor
  · intro hdisjoint
    obtain ⟨r, hr⟩ := (exists_toRegistry_iff _).2 (hacc₁.merge hacc₂ hdisjoint)
    refine ⟨r, registry_eq_ok_iff.2 hr, fun k hk => ?_, fun k hk => ?_⟩
    · exact answers_alike h₁ hr (fun s hs => List.mem_append_left _ hs) hk
    · exact answers_alike h₂ hr (fun s hs => List.mem_append_right _ hs) hk
  · rintro ⟨k, hk₁, hk₂⟩
    obtain ⟨first, hfirst⟩ : ∃ first,
        d₂.kinds.find? (fun k => decide (k ∈ d₁.kinds)) = some first :=
      Option.isSome_iff_exists.1 (List.find?_isSome.2 ⟨k, hk₂, by simpa using hk₁⟩)
    refine ⟨first, hfirst, ?_⟩
    rw [registry, toRegistry_merge_of_shared h₁ hacc₂ hfirst]

/-- A kind, and one that it extends. -/
def couple (lower upper : String) : Declarations :=
  ⟨"1.0", none, [⟨lower, some upper, none, []⟩, ⟨upper, none, none, []⟩]⟩

/-- Names and statements are declared apart and put together; calls would declare expressions again. -/
theorem merge_compositional_couple :
    (∃ r₁ r₂ r, (couple "Name" "expr").registry = .ok r₁ ∧ (couple "Pass" "stmt").registry = .ok r₂ ∧
        ((couple "Name" "expr").merge (couple "Pass" "stmt")).registry = .ok r ∧
          r.isA "Pass" "stmt" = true ∧ r.isA "Pass" "expr" = false) ∧
      ∃ r₁ r₂, (couple "Name" "expr").registry = .ok r₁ ∧ (couple "Call" "expr").registry = .ok r₂ ∧
        ((couple "Name" "expr").merge (couple "Call" "expr")).registry =
          .error (.invalid (.duplicateKind "expr")) := by
  have names : (couple "Name" "expr").registry = .ok _ := rfl
  have passes : (couple "Pass" "stmt").registry = .ok _ := rfl
  have calls : (couple "Call" "expr").registry = .ok _ := rfl
  constructor
  · obtain ⟨r, hr, -, hpasses⟩ := (merge_compositional names passes).1 (by decide)
    refine ⟨_, _, r, names, passes, hr, ?_⟩
    rw [(hpasses "Pass" (by decide)).2, (hpasses "Pass" (by decide)).2]
    decide
  · obtain ⟨k, hfirst, hrefused⟩ :=
      (merge_compositional names calls).2 ⟨"expr", by decide, by decide⟩
    obtain rfl : "expr" = k := Option.some.inj hfirst
    exact ⟨_, _, names, calls, hrefused⟩

end Declarations

end TreeSchema
