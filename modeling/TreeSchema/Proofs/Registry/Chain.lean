/-
# TreeSchema.Proofs.Registry.Chain — parent chains that never end.

Validation asks of each kind whether its chain of parents outlasts the number of kinds.  This file
shows that the question is the right one: in a coherent registry such a chain has come back to a
kind it already met, so it goes on for ever, and a chain that goes on for ever is one in the plain
sense — an infinite sequence of schemas, each of the parent kind of the one before.
-/
import TreeSchema.Proofs.Registry.Coherence
import Mathlib.Data.Fintype.Pigeonhole

namespace TreeSchema

/-- An infinite sequence of schemas from a list, each of the kind that the one before extends. -/
structure ParentChain (ss : List NodeSchema) (chain : Nat → NodeSchema) : Prop where
  declared : ∀ i, chain i ∈ ss
  parent : ∀ i, (chain i).parent = some (chain (i + 1)).kind

/-- A chain without its first schema is still a chain. -/
theorem ParentChain.tail {ss : List NodeSchema} {chain : Nat → NodeSchema}
    (h : ParentChain ss chain) : ParentChain ss fun i => chain (i + 1) :=
  ⟨fun i => h.declared (i + 1), fun i => h.parent (i + 1)⟩

namespace Registry

variable {r : Registry}

/-- The kind that many parent steps up, if the chain reaches that far. -/
def up (r : Registry) : Nat → String → Option String
  | 0, k => some k
  | n + 1, k => (r.parent? k).bind (up r n)

theorem up_add (r : Registry) (m n : Nat) (k : String) :
    r.up (m + n) k = (r.up m k).bind (r.up n) := by
  induction m generalizing k with
  | zero => simp [up]
  | succ m ih =>
      rw [Nat.succ_add, up, up, Option.bind_assoc]
      exact congrArg _ (funext ih)

theorem goesOn_iff (r : Registry) (n : Nat) (k : String) :
    r.goesOn n k = true ↔ ∃ a, r.up n k = some a ∧ r.contains a = true := by
  induction n generalizing k with
  | zero => simp [goesOn, up]
  | succ n ih =>
      cases hp : r.parent? k with
      | none => simp [goesOn, up, hp]
      | some p => simp [goesOn, up, hp, ih]

/-- Only a registered kind has a parent. -/
theorem contains_of_parent? {k p : String} (h : r.parent? k = some p) : r.contains k = true := by
  rw [parent?, get?, Option.bind_eq_some_iff] at h
  obtain ⟨s, hs, -⟩ := h
  obtain ⟨i, hi, -⟩ := Option.bind_eq_some_iff.1 hs
  rw [contains, hi]
  rfl

/-- A chain that goes on for a number of steps goes on for fewer. -/
theorem goesOn_of_le {m n : Nat} {k : String} (hmn : m ≤ n) (h : r.goesOn n k = true) :
    r.goesOn m k = true := by
  obtain ⟨a, ha, hc⟩ := (goesOn_iff r n k).1 h
  obtain ⟨d, rfl⟩ := Nat.exists_eq_add_of_le hmn
  rw [up_add] at ha
  obtain ⟨b, hb, hba⟩ := Option.bind_eq_some_iff.1 ha
  refine (goesOn_iff r m k).2 ⟨b, hb, ?_⟩
  cases d with
  | zero =>
      obtain rfl : b = a := Option.some.inj hba
      exact hc
  | succ d =>
      obtain ⟨p, hp, -⟩ := Option.bind_eq_some_iff.1 hba
      exact contains_of_parent? hp

namespace Coherent

/-- A chain that outlasts the number of kinds meets a kind twice. -/
theorem up_repeats (h : r.Coherent) {k : String} (hk : r.isEndless k = true) :
    ∃ i j, i < j ∧ j ≤ r.size ∧ r.up i k = r.up j k := by
  have hmet : ∀ i : Fin (r.size + 1), ∃ p : Fin r.size, ∃ a, r.up i k = some a ∧
      r.place? a = some p := by
    intro i
    obtain ⟨a, ha, hc⟩ := (goesOn_iff r i k).1 (goesOn_of_le (Nat.le_of_lt_succ i.isLt) hk)
    obtain ⟨p, hp⟩ := Option.isSome_iff_exists.1 hc
    obtain ⟨s, hs, -⟩ := (h a p).1 hp
    exact ⟨⟨p, (List.getElem?_eq_some_iff.1 hs).1⟩, a, ha, hp⟩
  -- one place more in the chain than there are kinds
  choose place kindAt hup hplace using hmet
  obtain ⟨i, j, hne, hij⟩ := Fintype.exists_ne_map_eq_of_card_lt place (by simp)
  have hkind : kindAt i = kindAt j := by
    obtain ⟨s, hs, hsi⟩ := (h _ _).1 (hplace i)
    obtain ⟨t, ht, htj⟩ := (h _ _).1 (hplace j)
    rw [hij] at hs
    obtain rfl : s = t := Option.some.inj (hs.symm.trans ht)
    rw [← hsi, htj]
  have hsame : r.up i k = r.up j k := by rw [hup i, hup j, hkind]
  rcases Nat.lt_or_gt_of_ne (Fin.val_ne_of_ne hne) with hlt | hlt
  · exact ⟨i, j, hlt, Nat.le_of_lt_succ j.isLt, hsame⟩
  · exact ⟨j, i, hlt, Nat.le_of_lt_succ i.isLt, hsame.symm⟩

/-- A chain that outlasts the number of kinds goes on for any number of steps. -/
theorem goesOn_of_isEndless (h : r.Coherent) {k : String} (hk : r.isEndless k = true) (n : Nat) :
    r.goesOn n k = true := by
  obtain ⟨i, j, hij, hj, hsame⟩ := h.up_repeats hk
  induction n using Nat.strongRecOn with
  | _ n ih =>
      by_cases hn : n ≤ r.size
      · exact goesOn_of_le hn hk
      · -- beyond the repetition, a place of the chain is one that was met a period before
        have hback : r.up n k = r.up (i + (n - j)) k := by
          have hsplit : n = j + (n - j) := by omega
          rw [hsplit, up_add, ← hsame, ← up_add]
          congr 1
          omega
        obtain ⟨a, ha, hc⟩ := (goesOn_iff r _ k).1 (ih (i + (n - j)) (by omega))
        exact (goesOn_iff r n k).2 ⟨a, hback.trans ha, hc⟩

/-- A kind is endless exactly when an infinite chain of parents starts from it. -/
theorem isEndless_iff (h : r.Coherent) (k : String) :
    r.isEndless k = true ↔ ∃ chain, ParentChain r.schemas chain ∧ (chain 0).kind = k := by
  constructor
  · intro hk
    have hschema : ∀ n, ∃ s, r.up n k = some s.kind ∧ s ∈ r.schemas := by
      intro n
      obtain ⟨a, ha, hc⟩ := (goesOn_iff r n k).1 (h.goesOn_of_isEndless hk n)
      obtain ⟨s, hs, rfl⟩ := (h.contains_iff a).1 hc
      exact ⟨s, ha, hs⟩
    choose chain hup hmem using hschema
    refine ⟨chain, ⟨hmem, ?_⟩, ?_⟩
    · intro n
      have hnext := hup (n + 1)
      rw [up_add, hup n, Option.bind_some] at hnext
      obtain ⟨p, hp, hpn⟩ := Option.bind_eq_some_iff.1 hnext
      have hget : r.get? (chain n).kind = some (chain n) :=
        h.get?_eq_some_iff.2 ⟨hmem n, rfl⟩
      rw [parent?, hget, Option.bind_some] at hp
      rw [hp, ← hpn]
      rfl
    · exact (Option.some.inj (hup 0)).symm
  · rintro ⟨chain, hchain, rfl⟩
    have hgoes : ∀ n, ∀ chain, ParentChain r.schemas chain →
        r.goesOn n (chain 0).kind = true := by
      intro n
      induction n with
      | zero =>
          intro chain hchain
          exact (h.contains_iff _).2 ⟨chain 0, hchain.declared 0, rfl⟩
      | succ n ih =>
          intro chain hchain
          have hget : r.get? (chain 0).kind = some (chain 0) :=
            h.get?_eq_some_iff.2 ⟨hchain.declared 0, rfl⟩
          have hparent : r.parent? (chain 0).kind = some (chain 1).kind := by
            rw [parent?, hget, Option.bind_some, hchain.parent 0]
          rw [goesOn, hparent]
          exact ih _ hchain.tail
    exact hgoes r.size chain hchain

end Coherent

end Registry

end TreeSchema
