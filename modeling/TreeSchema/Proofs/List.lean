/-
# TreeSchema.Proofs.List — lists that a function leaves alone, separated lists, lists with a leading run,
look-ups in lists of pairs, and lists related place by place.
-/
import Mathlib.Data.List.Basic
import Mathlib.Data.List.Forall2

namespace List

variable {α : Type}

/-- A function leaves a list alone exactly if it leaves its elements alone. -/
theorem map_eq_self_iff {f : α → α} {l : List α} : l.map f = l ↔ ∀ x ∈ l, f x = x := by
  conv_lhs => rhs; rw [← List.map_id l]
  simp only [List.map_inj_left, id_eq]

/-- A function keeps a list up to a comparison exactly if it keeps its elements up to it. -/
theorem isEqv_map_self_iff {eq : α → α → Bool} {f : α → α} {l : List α} :
    (l.map f).isEqv l eq = true ↔ ∀ x ∈ l, eq (f x) x = true := by
  induction l with
  | nil => simp
  | cons x l ih => rw [map_cons, isEqv_cons_cons, Bool.and_eq_true, ih, forall_mem_cons]

/-- Lists are the same if two views of them are that tell the elements apart together. -/
theorem eq_of_map_eq_map {β γ : Type} {f : α → β} {g : α → γ} {l l' : List α}
    (hviews : Function.Injective fun a => (f a, g a)) (hf : l.map f = l'.map f)
    (hg : l.map g = l'.map g) : l = l' := by
  refine List.map_injective_iff.2 hviews ?_
  rw [← List.zip_map', ← List.zip_map', hf, hg]

/-- Separated lists are the first of them and then a separator before each of the others. -/
theorem intercalate_cons_eq_flatMap (sep l : List α) (ls : List (List α)) :
    sep.intercalate (l :: ls) = l ++ ls.flatMap (sep ++ ·) := by
  induction ls generalizing l with
  | nil => simp
  | cons l' ls ih =>
    rw [List.intercalate_cons_cons, ih l']
    simp

theorem mem_of_mem_intercalate {a : α} {sep : List α} {ls : List (List α)}
    (h : a ∈ sep.intercalate ls) : a ∈ sep ∨ ∃ l ∈ ls, a ∈ l := by
  cases ls with
  | nil => simp at h
  | cons l ls =>
    rw [intercalate_cons_eq_flatMap, mem_append, mem_flatMap] at h
    rcases h with hl | ⟨l', hl', ha⟩
    · exact .inr ⟨l, mem_cons_self, hl⟩
    · rcases mem_append.1 ha with hsep | hin
      · exact .inl hsep
      · exact .inr ⟨l', mem_cons_of_mem _ hl', hin⟩

/-- Filtering separated lists filters the lists and the separator. -/
theorem filter_intercalate (p : α → Bool) (sep : List α) (ls : List (List α)) :
    (sep.intercalate ls).filter p = (sep.filter p).intercalate (ls.map (filter p)) := by
  cases ls with
  | nil => simp
  | cons l ls =>
    rw [intercalate_cons_eq_flatMap, map_cons, intercalate_cons_eq_flatMap, filter_append,
      filter_flatMap, flatMap_map]
    simp

/-- Where a property holds of a run of elements and fails right after it, the run is determined. -/
theorem append_inj_of_run {p : α → Bool} {xs ys r r' : List α} (hx : ∀ a ∈ xs, p a = true)
    (hy : ∀ a ∈ ys, p a = true) (hr : ∀ a ∈ r.head?, p a = false)
    (hr' : ∀ a ∈ r'.head?, p a = false) (h : xs ++ r = ys ++ r') : xs = ys ∧ r = r' := by
  have hrun : ∀ {zs s : List α}, (∀ a ∈ zs, p a = true) → (∀ a ∈ s.head?, p a = false) →
      (zs ++ s).takeWhile p = zs := by
    intro zs s hz hs
    rw [List.takeWhile_append_of_pos hz]
    cases s with
    | nil => simp
    | cons a s => simp [hs a (by simp)]
  have hxy : xs = ys := by
    rw [← hrun hx hr, h, hrun hy hr']
  subst hxy
  exact ⟨rfl, List.append_cancel_left h⟩

/-- Where no two pairs have one key, the order of the pairs does not matter to a look-up. -/
theorem Perm.lookup_eq {β : Type} [BEq α] [LawfulBEq α] {l l' : List (α × β)} (h : l.Perm l')
    (hkeys : (l.map Prod.fst).Nodup) (k : α) : l.lookup k = l'.lookup k := by
  induction h with
  | nil => rfl
  | cons p _ ih =>
      rw [List.map_cons, List.nodup_cons] at hkeys
      rw [List.lookup_cons, List.lookup_cons, ih hkeys.2]
  | swap p q l =>
      obtain ⟨a, b⟩ := p
      obtain ⟨c, d⟩ := q
      have hne : c ≠ a := by
        simp only [List.map_cons, List.nodup_cons, List.mem_cons, not_or] at hkeys
        exact hkeys.1.1
      -- the key looked for is that of one of the two at most
      by_cases hk : k = a
      · subst hk
        simp [List.lookup_cons, beq_eq_false_iff_ne.2 (Ne.symm hne)]
      · simp [List.lookup_cons, beq_eq_false_iff_ne.2 hk]
  | trans h₁ _ ih₁ ih₂ => exact (ih₁ hkeys).trans (ih₂ (((h₁.map Prod.fst).nodup_iff).1 hkeys))

section

variable {β γ : Type} {R : α → β → Prop} {as : List α} {bs : List β}

/-- Two functions make one list of two lists if they make one thing of each two elements. -/
theorem map_eq_map_iff_forall₂ {f : α → γ} {g : β → γ} :
    as.map f = bs.map g ↔ Forall₂ (fun a b => f a = g b) as bs := by
  rw [← forall₂_eq_eq_eq, forall₂_map_left_iff, forall₂_map_right_iff]

theorem Forall₂.getD (h : Forall₂ R as bs) {a : α} {b : β} (hab : R a b) (i : Nat) :
    R (as.getD i a) (bs.getD i b) := by
  induction h generalizing i with
  | nil => simpa using hab
  | cons hhead _ ih =>
      cases i with
      | zero => simpa using hhead
      | succ i => simpa using ih i

theorem Forall₂.set (h : Forall₂ R as bs) {a : α} {b : β} (hab : R a b) (i : Nat) :
    Forall₂ R (as.set i a) (bs.set i b) := by
  induction h generalizing i with
  | nil => simp
  | cons hhead htail ih =>
      cases i with
      | zero => exact .cons hab htail
      | succ i => exact .cons hhead (ih i)

end

end List
