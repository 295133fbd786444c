/-
# TreeSchema.Proofs.Registry.Visits — the walk that remembers the kinds it has met.

There are two ways to find out that a chain of parents does not end.  One counts: a chain that outlasts
the number of kinds goes on for ever.  The other remembers the kinds it has met and stops when it comes
back to one of them.  That walk is bounded by nothing but what is left to meet: every step meets a
registered kind for the first time, so the steps run out.  On every coherent registry the two agree, and
validation may be read either way.
-/
import TreeSchema.Proofs.Registry.Ancestry

namespace TreeSchema

namespace Registry

open Relation

variable {r : Registry}

theorem mem_schemas_of_get? {k : String} {s : NodeSchema} (h : r.get? k = some s) :
    s ∈ r.schemas := by
  obtain ⟨i, -, hi⟩ := Option.bind_eq_some_iff.1 h
  exact List.mem_of_getElem? hi

/-- The schema of the parent of a schema is one of the registry. -/
theorem mem_schemas_of_parent {s t : NodeSchema} (h : s.parent.bind r.get? = some t) :
    t ∈ r.schemas := by
  obtain ⟨p, -, hp⟩ := Option.bind_eq_some_iff.1 h
  exact mem_schemas_of_get? hp

/-- The registered kinds that a walk has not met. -/
def unmet (r : Registry) (met : List String) : Finset String := r.kinds.toFinset \ met.toFinset

theorem card_unmet_cons_lt {met : List String} {s : NodeSchema} (hs : s ∈ r.schemas)
    (hnew : s.kind ∉ met) : (r.unmet (s.kind :: met)).card < (r.unmet met).card := by
  have hunmet : s.kind ∈ r.unmet met := by
    simpa [unmet, kinds, hnew] using ⟨s, hs, rfl⟩
  have herase : r.unmet (s.kind :: met) = (r.unmet met).erase s.kind := by
    rw [unmet, List.toFinset_cons, Finset.sdiff_insert]
    rfl
  rw [herase]
  exact Finset.card_erase_lt_of_mem hunmet

/-- Whether the walk up from a schema comes back to a kind that it has met.  It ends where there is no
parent, or none that is registered. -/
def comesBack (r : Registry) (met : List String) (s : { s // s ∈ r.schemas }) : Bool :=
  if s.1.kind ∈ met then true
  else
    match hnext : s.1.parent.bind r.get? with
    | none => false
    | some t => r.comesBack (s.1.kind :: met) ⟨t, mem_schemas_of_parent hnext⟩
termination_by (r.unmet met).card
decreasing_by exact card_unmet_cons_lt s.2 (by assumption)

/-- Validation by walks: the first unregistered reference, else the first kind whose walk comes back. -/
def validateByWalks (r : Registry) : Except TreeError Unit :=
  match r.schemas.findSome? fun s => (r.dangling? s).map (TreeError.danglingReference s.kind) with
  | some e => .error e
  | none =>
    match r.schemas.attach.find? (r.comesBack []) with
    | some s => .error (.inheritanceCycle s.1.kind)
    | none => .ok ()

namespace Coherent

/-- A chain of parents is endless exactly if there is a next schema and its chain is. -/
theorem isEndless_iff_next (h : r.Coherent) {s : NodeSchema} (hs : s ∈ r.schemas) :
    r.isEndless s.kind = true ↔
      ∃ t, s.parent.bind r.get? = some t ∧ r.isEndless t.kind = true := by
  have hparent : r.parent? s.kind = s.parent := by
    rw [parent?, h.get?_eq_some_iff.2 ⟨hs, rfl⟩, Option.bind_some]
  constructor
  · intro hk
    -- the chain goes on one step longer than there are kinds, so that of the parent is long enough
    have hlong : r.goesOn (r.size + 1) s.kind = true := h.goesOn_of_isEndless hk _
    rw [goesOn, hparent] at hlong
    cases hp : s.parent with
    | none => simp [hp] at hlong
    | some p =>
        have hendless : r.isEndless p = true := by simpa [hp, isEndless] using hlong
        obtain ⟨t, ht, rfl⟩ := (h.contains_iff p).1 (goesOn_of_le (Nat.zero_le _) hendless)
        exact ⟨t, h.get?_eq_some_iff.2 ⟨ht, rfl⟩, hendless⟩
  · rintro ⟨t, ht, hendless⟩
    obtain ⟨p, hp, hget⟩ := Option.bind_eq_some_iff.1 ht
    obtain ⟨-, rfl⟩ := h.get?_eq_some_iff.1 hget
    have hlong : r.goesOn (r.size + 1) s.kind = true := by
      rw [goesOn, hparent, hp]
      exact hendless
    exact goesOn_of_le (Nat.le_succ _) hlong

/-- **A walk comes back exactly if its chain never ends**, provided that whatever it has met leads up to
where it stands. -/
theorem comesBack_iff (h : r.Coherent) {met : List String} {s : { s // s ∈ r.schemas }}
    (hmet : ∀ k ∈ met, TransGen r.Extends k s.1.kind) :
    r.comesBack met s = true ↔ r.isEndless s.1.kind = true := by
  fun_induction comesBack r met s with
  | case1 met s hin =>
      obtain ⟨n, hn⟩ := h.transGen_iff.1 (hmet _ hin)
      exact iff_of_true rfl (isEndless_of_up_self hn)
  | case2 met s hnew hnone =>
      rw [h.isEndless_iff_next s.2, hnone]
      simp
  | case3 met s hnew t hnext ih =>
      have hextends : r.Extends s.1.kind t.kind := by
        obtain ⟨p, hp, hget⟩ := Option.bind_eq_some_iff.1 hnext
        obtain ⟨-, rfl⟩ := h.get?_eq_some_iff.1 hget
        exact ⟨s.1, s.2, rfl, hp⟩
      have hmet' : ∀ k ∈ s.1.kind :: met, TransGen r.Extends k t.kind := by
        intro k hk
        rcases List.mem_cons.1 hk with rfl | hk
        · exact .single hextends
        · exact (hmet k hk).tail hextends
      rw [ih hmet', h.isEndless_iff_next s.2, hnext]
      simp

/-- Validation is what the walks find. -/
theorem validate_eq_validateByWalks (h : r.Coherent) : r.validate = r.validateByWalks := by
  have hwalk : (fun s : { s // s ∈ r.schemas } => r.isEndless s.1.kind) = r.comesBack [] := by
    funext s
    exact (Bool.eq_iff_iff.2 (h.comesBack_iff (by simp))).symm
  have hfirst : r.schemas.find? (fun s => r.isEndless s.kind)
      = (r.schemas.attach.find? (r.comesBack [])).map Subtype.val := by
    conv_lhs => rw [← List.attach_map_subtype_val r.schemas, List.find?_map]
    rw [← hwalk]
    rfl
  unfold validate validateByWalks
  rw [hfirst]
  cases r.schemas.attach.find? (r.comesBack []) <;> rfl

end Coherent

end Registry

end TreeSchema
