/-
# TreeSchema.Proofs.Registry.Cycle — the kind that a cycle error names leads into a cycle.

Validation walks up from each kind in turn and reports the kind it set out from when a walk does not end.
Such a walk comes back to a kind it has met, so there is a cycle above the kind that is named.  The kind
itself need not lie on it: a kind whose parent chain leads into a cycle further up is endless too, and is
named if it was registered before the kinds of the cycle.  It lies on the cycle exactly if whatever it
extends extends it in turn.
-/
import TreeSchema.Proofs.Registry.Ancestry
import TreeSchema.Proofs.Registry.FirstFault

namespace TreeSchema

namespace Registry

open Relation

variable {r : Registry}

namespace Coherent

/-- A kind with an endless chain has a parent. -/
theorem exists_extends_of_isEndless (h : r.Coherent) {k : String} (hk : r.isEndless k = true) :
    ∃ p, r.Extends k p := by
  obtain ⟨a, ha, -⟩ := (goesOn_iff r 1 k).1 (h.goesOn_of_isEndless hk 1)
  obtain ⟨p, hp, -⟩ := Option.bind_eq_some_iff.1 ha
  exact ⟨p, h.extends_iff.2 hp⟩

/-- An endless chain comes to a kind that extends itself. -/
theorem exists_cycle_of_isEndless (h : r.Coherent) {k : String} (hk : r.isEndless k = true) :
    ∃ a, ReflTransGen r.Extends k a ∧ TransGen r.Extends a a := by
  obtain ⟨i, j, hij, hj, hsame⟩ := h.up_repeats hk
  obtain ⟨a, ha, -⟩ := (goesOn_iff r i k).1 (h.goesOn_of_isEndless hk i)
  refine ⟨a, h.reflTransGen_iff.2 ⟨i, ha⟩, h.transGen_iff.2 ⟨j - i - 1, ?_⟩⟩
  have hperiod : j - i - 1 + 1 = j - i := by omega
  rw [hperiod]
  exact up_sub hij.le ha (hsame ▸ ha)

/-- From a kind on a cycle, whatever lies up leads back. -/
theorem reflTransGen_back (h : r.Coherent) {k a : String} (hcycle : TransGen r.Extends k k)
    (hka : ReflTransGen r.Extends k a) : ReflTransGen r.Extends a k := by
  obtain ⟨n, hn⟩ := h.transGen_iff.1 hcycle
  obtain ⟨m, hm⟩ := h.reflTransGen_iff.1 hka
  -- the cycle is gone often enough to pass `a`
  have hround := up_mul hn m
  have hlong : m ≤ m * (n + 1) := Nat.le_mul_of_pos_right m n.succ_pos
  exact h.reflTransGen_iff.2 ⟨_, up_sub hlong hm hround⟩

end Coherent

/-- **The kind that a cycle error names leads into a cycle**, and it lies on one exactly if every kind that
it extends, directly or not, extends it in turn. -/
theorem cycle_above_named (calls : List NodeSchema) {k : String}
    (hreport : (ofCalls calls).validate = .error (.inheritanceCycle k)) :
    (∃ a, ReflTransGen (ofCalls calls).Extends k a ∧ TransGen (ofCalls calls).Extends a a) ∧
      (TransGen (ofCalls calls).Extends k k ↔
        ∀ a, ReflTransGen (ofCalls calls).Extends k a → ReflTransGen (ofCalls calls).Extends a k) := by
  have h : (ofCalls calls).Coherent := (grown_ofCalls calls).coherent
  obtain ⟨-, before, after, -, hendless, -⟩ := h.validate_eq_cycle_iff.1 hreport
  have hk : (ofCalls calls).isEndless k = true := (h.isEndless_iff k).2 hendless
  refine ⟨h.exists_cycle_of_isEndless hk, ?_⟩
  constructor
  · intro hcycle a hka
    exact h.reflTransGen_back hcycle hka
  · intro hback
    obtain ⟨p, hp⟩ := h.exists_extends_of_isEndless hk
    exact .head' hp (hback p (.single hp))

/-- Two kinds that extend one of them: the one that was registered first leads up to the other. -/
def below : List NodeSchema := [⟨"a", some "b", none, []⟩, ⟨"b", some "b", none, []⟩]

theorem cycle_above_named_below :
    (ofCalls below).validate = .error (.inheritanceCycle "a") ∧
      (∃ a, ReflTransGen (ofCalls below).Extends "a" a ∧ TransGen (ofCalls below).Extends a a) ∧
        (TransGen (ofCalls below).Extends "a" "a" ↔
          ∀ a, ReflTransGen (ofCalls below).Extends "a" a →
            ReflTransGen (ofCalls below).Extends a "a") := by
  have hreport : (ofCalls below).validate = .error (.inheritanceCycle "a") := by decide
  exact ⟨hreport, cycle_above_named below hreport⟩

/-- The only cycle is that of `b`, and yet the cycle is said to go through `a`. -/
theorem cycle_named_from_below :
    (ofCalls below).validate = .error (.inheritanceCycle "a") ∧
      (TreeError.inheritanceCycle "a").message = "inheritance cycle through a" ∧
        TransGen (ofCalls below).Extends "b" "b" ∧ ¬ TransGen (ofCalls below).Extends "a" "a" := by
  have hschemas : (ofCalls below).schemas = below := by decide
  refine ⟨by decide, by decide, .single ⟨⟨"b", some "b", none, []⟩, ?_, rfl, rfl⟩, ?_⟩
  · rw [hschemas]
    simp [below]
  · intro hcycle
    obtain ⟨k, -, s, hs, -, hparent⟩ := TransGen.tail'_iff.1 hcycle
    rw [hschemas] at hs
    -- every parent is `b`
    simp only [below, List.mem_cons, List.not_mem_nil, or_false] at hs
    rcases hs with rfl | rfl <;> simp at hparent

end Registry

end TreeSchema
