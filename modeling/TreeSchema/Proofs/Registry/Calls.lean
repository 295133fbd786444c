/-
# TreeSchema.Proofs.Registry.Calls — the list and the index are in step after every call.

A registry holds its schemas in a list and answers every question through an index from kinds to places.
Nothing in its type ties the two together, and registering writes them one after the other.  This file
says that no call leaves them apart: a schema that is refused has not been entered anywhere, and one that
is taken has been entered in both.  So the index is the list of kinds with their places and nothing else,
whichever calls have been made and however many of them were refused.
-/
import TreeSchema.Proofs.Registry.Coherence
import TreeSchema.Registry.InPlace

namespace TreeSchema.Registry

variable {r : Registry}

/-! ## The index -/

/-- No two places hold the same kind: the index leads from the kind to one place only. -/
theorem Coherent.kinds_nodup (h : r.Coherent) : r.kinds.Nodup := by
  refine List.pairwise_iff_getElem.2 fun i j hi hj hij hsame => ?_
  have hplace : ∀ (k : Nat) (hk : k < r.kinds.length), r.place? r.kinds[k] = some k := by
    intro k hk
    have hk' : k < r.schemas.length := by simpa [kinds] using hk
    exact (h _ k).2 ⟨r.schemas[k], List.getElem?_eq_getElem hk', by simp [kinds]⟩
  have hplaces := hplace i hi
  rw [hsame, hplace j hj] at hplaces
  exact Nat.ne_of_gt hij (Option.some.inj hplaces)

/-- The index of a registry that registering makes is the list of its kinds with their places, newest
first. -/
theorem Grown.index_eq (h : r.Grown) : r.index = r.kinds.zipIdx.reverse := by
  induction h with
  | empty => rfl
  | @register r _ s _ hr ih =>
      obtain ⟨-, rfl⟩ := register_eq_ok_iff.1 hr
      have hkinds : (r.append s).kinds = r.kinds ++ [s.kind] := by simp [append, kinds]
      have hlength : r.kinds.length = r.schemas.length := by simp [kinds]
      rw [hkinds, List.zipIdx_append, List.reverse_append, ← ih, hlength]
      simp [append]

/-- The list of schemas and the index of a registry are in step. -/
structure InStep (r : Registry) : Prop where
  /-- The index leads from a kind to the place of its schema, and nowhere else. -/
  place?_eq_some_iff : ∀ k i, r.place? k = some i ↔ ∃ h : i < r.schemas.length, r.schemas[i].kind = k
  kinds_nodup : r.kinds.Nodup
  /-- No entry of the index hides another. -/
  keys_nodup : (r.index.map Prod.fst).Nodup
  length_index : r.index.length = r.schemas.length
  /-- A look-up never leaves the list. -/
  get?_of_place? : ∀ k i, r.place? k = some i → ∃ h : i < r.schemas.length, r.get? k = some r.schemas[i]
  /-- A look-up finds what a search of the list finds. -/
  get?_eq_find? : ∀ k, r.get? k = r.schemas.find? fun s => s.kind = k

theorem Coherent.place?_eq_some_iff (h : r.Coherent) (k : String) (i : Nat) :
    r.place? k = some i ↔ ∃ hi : i < r.schemas.length, r.schemas[i].kind = k := by
  rw [h k i]
  simp only [List.getElem?_eq_some_iff]
  constructor
  · rintro ⟨s, ⟨hi, rfl⟩, hk⟩
    exact ⟨hi, hk⟩
  · rintro ⟨hi, hk⟩
    exact ⟨_, ⟨hi, rfl⟩, hk⟩

theorem Grown.inStep (h : r.Grown) : r.InStep := by
  have hkeys : r.index.map Prod.fst = r.kinds.reverse := by
    rw [h.index_eq, List.map_reverse, List.zipIdx_map_fst]
  constructor
  · exact h.coherent.place?_eq_some_iff
  · exact h.coherent.kinds_nodup
  · rw [hkeys, List.nodup_reverse]
    exact h.coherent.kinds_nodup
  · simpa [kinds] using congrArg List.length hkeys
  · intro k i hi
    obtain ⟨hlt, -⟩ := (h.coherent.place?_eq_some_iff k i).1 hi
    exact ⟨hlt, by simp [get?, hi, hlt]⟩
  · exact h.coherent.get?_eq_find?

/-! ## Calls in place -/

namespace InPlace

/-- What a call answers, and the registry that it leaves: a schema at fault is refused before anything is
written. -/
theorem run_register (s : NodeSchema) (r : Registry) :
    Id.run ((register s).run r) =
      match r.fault? s with
      | some e => (.error e, r)
      | none => (.ok (), r.append s) := by
  -- reading the registry leaves it as it is, so the judgement is of `r`
  show Id.run ((match r.fault? s with
    | some e => throw e
    | none => do
      enterKind s.kind
      putSchema s : InPlace Unit).run r) = _
  cases r.fault? s with
  | some e => rfl
  | none => rfl

theorem snd_run_register (s : NodeSchema) (r : Registry) :
    (Id.run ((register s).run r)).2 = r.attempt s := by
  rw [run_register, attempt, Registry.register]
  cases r.fault? s with
  | some e => rfl
  | none => rfl

/-- Calls leave the registry that one attempt after the other makes. -/
theorem snd_run_registerEach (calls : List NodeSchema) (r : Registry) :
    (Id.run ((registerEach calls).run r)).2 = calls.foldl attempt r := by
  induction calls generalizing r with
  | nil => rfl
  | cons s rest ih =>
      rw [List.foldl_cons, ← snd_run_register, ← ih, registerEach, List.mapM_cons]
      rfl

end InPlace

/-- A coherent registry takes exactly the proper schemas of kinds that it does not have. -/
theorem Coherent.fault?_eq_none_iff (h : r.Coherent) (s : NodeSchema) :
    r.fault? s = none ↔ s.Proper ∧ s.kind ∉ r.kinds := by
  rw [Registry.fault?_eq_none_iff, ← h.contains_iff_mem_kinds, Bool.not_eq_true]

/-- **After every call the list and the index are in step**, whatever schemas have been offered to a new
registry and whichever of them were refused, and all schemas in the list are proper.  The next call takes
a schema exactly if it is proper and its kind is new, and then enters this schema and nothing else;
otherwise it fails and leaves the registry as it was. -/
theorem inStep_after_calls (calls : List NodeSchema) :
    let r := (Id.run ((InPlace.registerEach calls).run empty)).2
    r.InStep ∧ (∀ s ∈ r.schemas, s.Proper) ∧
      ∀ (s : NodeSchema) (r' : Registry),
        (Id.run ((InPlace.register s).run r) = (.ok (), r') ↔
          (s.Proper ∧ s.kind ∉ r.kinds) ∧
            r' = ⟨r.schemas ++ [s], (s.kind, r.schemas.length) :: r.index⟩) ∧
        ((∃ e, Id.run ((InPlace.register s).run r) = (.error e, r')) ↔
          ¬ (s.Proper ∧ s.kind ∉ r.kinds) ∧ r' = r) := by
  intro r
  have hr : r.Grown := by
    show (Id.run ((InPlace.registerEach calls).run empty)).2.Grown
    rw [InPlace.snd_run_registerEach]
    exact grown_ofCalls calls
  refine ⟨hr.inStep, hr.proper, ?_⟩
  intro s r'
  rw [InPlace.run_register, ← hr.coherent.fault?_eq_none_iff]
  cases r.fault? s with
  | some e => simp [eq_comm]
  | none => simp [append, eq_comm]

/-- Two schemas are taken and two refused, one for its kind and one for a field that comes twice. -/
example :
    Id.run ((InPlace.registerEach
        [⟨"a", some "b", none, []⟩, ⟨"a", none, none, []⟩,
          ⟨"c", none, none, [⟨"x", [.int], .needed, none⟩, ⟨"x", [.text], .optional, none⟩]⟩,
          ⟨"b", none, none, []⟩]).run empty)
      = ([.ok (), .error (.duplicateKind "a"), .error (.duplicateField "c" "x"), .ok ()],
          ⟨[⟨"a", some "b", none, []⟩, ⟨"b", none, none, []⟩], [("b", 1), ("a", 0)]⟩) := rfl

end TreeSchema.Registry
