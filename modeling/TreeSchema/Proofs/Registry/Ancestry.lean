/-
# TreeSchema.Proofs.Registry.Ancestry — asking for an ancestor is following parents.

Kinds extend other kinds: a registered kind its declared parent, which need not be registered itself.
`isA` walks up and stops after as many steps as there are kinds.  On a registry that calls have made,
validated or not, with parents that dangle or chains that lead back into themselves, the walk finds exactly
what can be reached along parents, and to walk on would find nothing more.
-/
import TreeSchema.Proofs.Registry.Hierarchy
import Mathlib.Logic.Relation

namespace TreeSchema

namespace Registry

open Relation

variable {r : Registry}

/-- One step up: a registered kind extends its declared parent, registered or not. -/
def Extends (r : Registry) (k p : String) : Prop :=
  ∃ s ∈ r.schemas, s.kind = k ∧ s.parent = some p

namespace Coherent

theorem extends_iff (h : r.Coherent) {k p : String} : r.Extends k p ↔ r.parent? k = some p := by
  unfold Registry.parent?
  rw [Option.bind_eq_some_iff]
  simp only [h.get?_eq_some_iff, Extends, and_assoc]

/-- What can be reached along parents is that many parents up, for some number. -/
theorem reflTransGen_iff (h : r.Coherent) {k a : String} :
    ReflTransGen r.Extends k a ↔ ∃ n, r.up n k = some a := by
  constructor
  · intro hka
    induction hka with
    | refl => exact ⟨0, rfl⟩
    | tail _ hstep ih =>
        obtain ⟨n, hn⟩ := ih
        refine ⟨n + 1, up_trans hn ?_⟩
        show (r.parent? _).bind (r.up 0) = _
        rw [h.extends_iff.1 hstep]
        rfl
  · rintro ⟨n, hn⟩
    induction n generalizing k with
    | zero =>
        obtain rfl : k = a := Option.some.inj hn
        exact .refl
    | succ n ih =>
        obtain ⟨p, hp, hpa⟩ := Option.bind_eq_some_iff.1 hn
        exact .head (h.extends_iff.2 hp) (ih hpa)

/-- What can be reached in at least one step is one parent up or more. -/
theorem transGen_iff (h : r.Coherent) {k a : String} :
    TransGen r.Extends k a ↔ ∃ n, r.up (n + 1) k = some a := by
  rw [TransGen.head'_iff]
  constructor
  · rintro ⟨p, hp, hpa⟩
    obtain ⟨n, hn⟩ := h.reflTransGen_iff.1 hpa
    refine ⟨n, ?_⟩
    rw [up, h.extends_iff.1 hp, Option.bind_some, hn]
  · rintro ⟨n, hn⟩
    obtain ⟨p, hp, hpa⟩ := Option.bind_eq_some_iff.1 hn
    exact ⟨p, h.extends_iff.2 hp, h.reflTransGen_iff.2 ⟨n, hpa⟩⟩

/-- A walk of more steps than there are kinds finds nothing that a shorter one does not. -/
theorem isAWithin_eq_isA (h : r.Coherent) {steps : Nat} (hsteps : r.size ≤ steps) (k a : String) :
    r.isAWithin a steps k = r.isA k a := by
  apply Bool.eq_iff_iff.2
  rw [h.isA_iff, isAWithin_iff]
  constructor
  · rintro ⟨n, -, hup⟩
    exact ⟨n, hup⟩
  · rintro ⟨n, hup⟩
    obtain ⟨m, hm, hup⟩ := h.exists_up_le hup
    exact ⟨m, hm.trans hsteps, hup⟩

end Coherent

/-- **A kind is an ancestor exactly if it is reached along parents**, in no step or in any number of
them, whatever calls have made the registry: it need not be valid, and neither kind need be registered.
The walk is not cut off too early, since no number of further steps changes its answer. -/
theorem isA_iff_reflTransGen (calls : List NodeSchema) (k a : String) :
    ((ofCalls calls).isA k a = true ↔ ReflTransGen (ofCalls calls).Extends k a) ∧
      ∀ steps, (ofCalls calls).size ≤ steps →
        (ofCalls calls).isAWithin a steps k = (ofCalls calls).isA k a := by
  have h : (ofCalls calls).Coherent := (grown_ofCalls calls).coherent
  constructor
  · rw [h.isA_iff, h.reflTransGen_iff]
  · intro steps hsteps
    exact h.isAWithin_eq_isA hsteps k a

/-- As many steps as there are kinds lead from the first of them to a parent that is not registered; a
refused call in between does not count. -/
example :
    (ofCalls [⟨"a", some "b", none, []⟩, ⟨"a", none, none, []⟩, ⟨"b", some "c", none, []⟩]).isA "a" "c"
      = true := by decide

end Registry

end TreeSchema
