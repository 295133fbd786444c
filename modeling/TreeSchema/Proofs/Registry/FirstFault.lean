/-
# TreeSchema.Proofs.Registry.FirstFault — which fault validation reports.

Validation looks at all references before it looks at any chain of parents, and stops at the first fault.
What comes first is a matter of places: schemas in order of registration; in a schema the parent, then the
fields; in a field the types.  Places are ordered lexicographically, and a search through nested lists
comes to what stands at the least place (`FirstOf`).  With that the answer of validation is given outright:
the first dangling reference, else the first kind whose chain of parents never ends, else nothing.
-/
import TreeSchema.Proofs.Registry.Visits
import Mathlib.Data.Prod.Lex
import Mathlib.Order.WithBot

namespace TreeSchema

/-! ## The first of what is found -/

/-- What a search in the order of places comes to: that which stands at the first place that holds
anything, or nothing. -/
def FirstOf {ι β : Type} [LT ι] (At : ι → β → Prop) : Option β → Prop
  | some b => ∃ i, At i b ∧ ∀ j < i, ∀ c, ¬ At j c
  | none => ∀ i c, ¬ At i c

namespace FirstOf

variable {α β γ ι : Type} {o o' : Option β}

section

variable [LT ι] {At : ι → β → Prop}

theorem eq_none_iff (h : FirstOf At o) : o = none ↔ ∀ i c, ¬ At i c := by
  cases o with
  | none => exact iff_of_true rfl h
  | some b =>
      obtain ⟨i, hi, -⟩ := h
      exact iff_of_false (by simp) fun hno => hno i b hi

theorem congr {At' : ι → β → Prop} (h : FirstOf At o) (hsame : ∀ i b, At i b ↔ At' i b) :
    FirstOf At' o := by
  obtain rfl : At = At' := funext fun i => funext fun b => propext (hsame i b)
  exact h

theorem map (h : FirstOf At o) (g : β → γ) :
    FirstOf (fun i c => ∃ b, At i b ∧ g b = c) (o.map g) := by
  cases o with
  | none =>
      rintro i c ⟨b, hb, -⟩
      exact h i b hb
  | some b =>
      obtain ⟨i, hi, hfirst⟩ := h
      refine ⟨i, ⟨b, hi, rfl⟩, ?_⟩
      rintro j hj c ⟨b', hb', -⟩
      exact hfirst j hj b' hb'

/-- A search that begins at a place before all others. -/
theorem or {At' : WithBot ι → β → Prop} (h : FirstOf At o') (hbot : ∀ b, At' ⊥ b ↔ o = some b)
    (hcoe : ∀ (i : ι) b, At' i b ↔ At i b) : FirstOf At' (o.or o') := by
  cases o with
  | some b =>
      refine ⟨⊥, (hbot b).2 rfl, ?_⟩
      intro p hp
      exact absurd hp (WithBot.not_lt_bot p)
  | none =>
      have hnone : ∀ c, ¬ At' ⊥ c := by simp [hbot]
      cases o' with
      | none =>
          intro p c hc
          induction p with
          | bot => exact hnone c hc
          | coe i => exact h i c ((hcoe i c).1 hc)
      | some b =>
          obtain ⟨i, hi, hfirst⟩ := h
          refine ⟨i, (hcoe i b).2 hi, ?_⟩
          intro p hp c hc
          induction p with
          | bot => exact hnone c hc
          | coe j => exact hfirst j (WithBot.coe_lt_coe.1 hp) c ((hcoe j c).1 hc)

end

/-- Where a place holds one thing at most, a search has one outcome. -/
theorem eq_some_iff [LinearOrder ι] {At : ι → β → Prop} (h : FirstOf At o)
    (hone : ∀ i b c, At i b → At i c → b = c) {b : β} :
    o = some b ↔ ∃ i, At i b ∧ ∀ j < i, ∀ c, ¬ At j c := by
  constructor
  · rintro rfl
    exact h
  · rintro ⟨i, hi, hfirst⟩
    cases o with
    | none => exact absurd hi (h i b)
    | some b' =>
        obtain ⟨j, hj, hfirst'⟩ := h
        rcases lt_trichotomy i j with hij | rfl | hij
        · exact absurd hi (hfirst' i hij b)
        · rw [hone i b b' hi hj]
        · exact absurd hj (hfirst j hij b')

/-- A search through a list comes to what the first element with an outcome gives. -/
theorem of_list (f : α → Option β) (xs : List α) :
    FirstOf (fun (i : ℕ) b => ∃ a, xs[i]? = some a ∧ f a = some b) (xs.findSome? f) := by
  cases hfound : xs.findSome? f with
  | none =>
      rintro i b ⟨a, ha, hb⟩
      rw [List.findSome?_eq_none_iff.1 hfound a (List.mem_of_getElem? ha)] at hb
      cases hb
  | some b =>
      obtain ⟨before, a, after, rfl, hb, hbefore⟩ := List.findSome?_eq_some_iff.1 hfound
      refine ⟨before.length, ⟨a, by simp, hb⟩, ?_⟩
      rintro j hj c ⟨a', ha', hc⟩
      rw [List.getElem?_append_left hj] at ha'
      rw [hbefore a' (List.mem_of_getElem? ha')] at hc
      cases hc

/-- A search through a list and in each element: the element comes first in the order of places. -/
theorem findSome? [LT ι] {At : α → ι → β → Prop} {f : α → Option β} (xs : List α)
    (h : ∀ a, FirstOf (At a) (f a)) :
    FirstOf (fun (p : ℕ ×ₗ ι) b => ∃ a, xs[(ofLex p).1]? = some a ∧ At a (ofLex p).2 b)
      (xs.findSome? f) := by
  have hempty : ∀ {a}, (∀ c, f a ≠ some c) → ∀ i c, ¬ At a i c := fun hno =>
    (h _).eq_none_iff.1 (Option.eq_none_iff_forall_ne_some.2 hno)
  have hlist := of_list f xs
  cases hfound : xs.findSome? f with
  | none =>
      rw [hfound] at hlist
      rintro p b ⟨a, ha, hb⟩
      exact hempty (fun c hc => hlist _ c ⟨a, ha, hc⟩) _ b hb
  | some b =>
      rw [hfound] at hlist
      obtain ⟨n, ⟨a, ha, hb⟩, hbefore⟩ := hlist
      obtain ⟨i, hi, hfirst⟩ : FirstOf (At a) (some b) := hb ▸ h a
      refine ⟨toLex (n, i), ⟨a, ha, hi⟩, ?_⟩
      rintro p hp c ⟨a', ha', hc⟩
      rcases Prod.Lex.lt_iff.1 hp with hlt | ⟨heq, hlt⟩
      · exact hempty (fun d hd => hbefore _ hlt d ⟨a', ha', hd⟩) _ c hc
      · rw [heq] at ha'
        obtain rfl : a = a' := Option.some.inj (ha.symm.trans ha')
        exact hfirst _ hlt c hc

end FirstOf

/-! ## Places of references -/

/-- A schema names a kind at a place: its parent before all else, then the `j`-th type of its `i`-th
field, field by field. -/
inductive NodeSchema.Names (s : NodeSchema) : WithBot (ℕ ×ₗ ℕ) → String → Prop
  | parent {k : String} : s.parent = some k → s.Names ⊥ k
  | type {i j : ℕ} {f : FieldSpec} {k : String} :
      s.fields[i]? = some f → f.types[j]? = some (.node k) → s.Names (toLex (i, j) : ℕ ×ₗ ℕ) k

namespace NodeSchema

variable {s : NodeSchema} {k : String}

theorem names_bot_iff : s.Names ⊥ k ↔ s.parent = some k := by
  constructor
  · intro h
    generalize hp : (⊥ : WithBot (ℕ ×ₗ ℕ)) = p at h
    cases h with
    | parent hparent => exact hparent
    | type => exact absurd hp WithBot.bot_ne_coe
  · exact .parent

theorem names_coe_iff {p : ℕ ×ₗ ℕ} :
    s.Names p k ↔
      ∃ f, s.fields[(ofLex p).1]? = some f ∧ f.types[(ofLex p).2]? = some (.node k) := by
  constructor
  · intro h
    generalize hp : (p : WithBot (ℕ ×ₗ ℕ)) = q at h
    cases h with
    | parent => exact absurd hp WithBot.coe_ne_bot
    | type hf ht =>
        obtain rfl := WithBot.coe_injective hp
        exact ⟨_, hf, ht⟩
  · rintro ⟨f, hf, ht⟩
    exact .type hf ht

/-- Something is named at some place exactly if it is among the references. -/
theorem exists_names_iff : (∃ p, s.Names p k) ↔ k ∈ s.references := by
  rw [mem_references_iff]
  constructor
  · rintro ⟨p, hp⟩
    cases hp with
    | parent hparent => exact Or.inl hparent
    | type hf ht => exact Or.inr ⟨_, List.mem_of_getElem? hf, List.mem_of_getElem? ht⟩
  · rintro (hparent | ⟨f, hf, ht⟩)
    · exact ⟨⊥, .parent hparent⟩
    · obtain ⟨i, hi⟩ := List.mem_iff_getElem?.1 hf
      obtain ⟨j, hj⟩ := List.mem_iff_getElem?.1 ht
      exact ⟨_, .type hi hj⟩

/-- A place holds one name. -/
theorem Names.eq {p : WithBot (ℕ ×ₗ ℕ)} {k' : String} (h : s.Names p k) (h' : s.Names p k') :
    k = k' := by
  induction p with
  | bot => exact Option.some.inj ((names_bot_iff.1 h).symm.trans (names_bot_iff.1 h'))
  | coe p =>
      obtain ⟨f, hf, ht⟩ := names_coe_iff.1 h
      obtain ⟨g, hg, ht'⟩ := names_coe_iff.1 h'
      obtain rfl : f = g := Option.some.inj (hf.symm.trans hg)
      exact FieldType.node.inj (Option.some.inj (ht.symm.trans ht'))

/-- The first of the kinds that types refer to. -/
theorem find?_targets (bad : String → Bool) (ts : List FieldType) :
    (ts.filterMap FieldType.target?).find? bad = ts.findSome? fun t => t.target?.filter bad := by
  induction ts with
  | nil => rfl
  | cons t ts ih =>
      cases ht : t.target? with
      | none => simp [ht, ih]
      | some k => cases hk : bad k <;> simp [ht, hk, ih, Option.filter]

/-- Searching the references of a schema is searching the places where it names kinds. -/
theorem firstOf_find?_references (s : NodeSchema) (bad : String → Bool) :
    FirstOf (fun p k => s.Names p k ∧ bad k = true) (s.references.find? bad) := by
  rw [references, fieldTargets, List.find?_append, List.find?_flatMap]
  have htypes : ∀ f : FieldSpec, FirstOf
      (fun (j : ℕ) k => ∃ t, f.types[j]? = some t ∧ t.target?.filter bad = some k)
      ((f.types.filterMap FieldType.target?).find? bad) := by
    intro f
    rw [find?_targets]
    exact .of_list _ _
  apply (FirstOf.findSome? s.fields htypes).or
  · intro k
    rw [names_bot_iff]
    cases s.parent with
    | none => simp
    | some p => grind
  · intro p k
    simp only [names_coe_iff, Option.filter_eq_some_iff, FieldType.target?_eq_some_iff]
    grind

end NodeSchema

namespace Registry

variable {r : Registry}

/-! ## References -/

/-- At a place, first the schema and then the place in it, a kind names one that is not registered. -/
def DanglesAt (r : Registry) (place : ℕ ×ₗ WithBot (ℕ ×ₗ ℕ)) (kind target : String) : Prop :=
  ∃ s, r.schemas[(ofLex place).1]? = some s ∧ s.kind = kind ∧ s.Names (ofLex place).2 target ∧
    target ∉ r.kinds

/-- Some parent or some field type refers to a kind that is not registered. -/
def Dangles (r : Registry) : Prop :=
  ∃ s ∈ r.schemas, ∃ target,
    (s.parent = some target ∨ ∃ f ∈ s.fields, FieldType.node target ∈ f.types) ∧ target ∉ r.kinds

/-- At the first place of all where a reference dangles, a kind refers to a target. -/
def FirstDangling (r : Registry) (kind target : String) : Prop :=
  ∃ place, r.DanglesAt place kind target ∧
    ∀ earlier < place, ∀ kind' target', ¬ r.DanglesAt earlier kind' target'

theorem exists_danglesAt_iff : (∃ place kind target, r.DanglesAt place kind target) ↔ r.Dangles := by
  constructor
  · rintro ⟨place, kind, target, s, hs, -, hnames, htarget⟩
    have hreference := NodeSchema.exists_names_iff.1 ⟨_, hnames⟩
    exact ⟨s, List.mem_of_getElem? hs, target, NodeSchema.mem_references_iff.1 hreference, htarget⟩
  · rintro ⟨s, hs, target, hreference, htarget⟩
    obtain ⟨i, hi⟩ := List.mem_iff_getElem?.1 hs
    obtain ⟨p, hp⟩ :=
      NodeSchema.exists_names_iff.2 (NodeSchema.mem_references_iff.2 hreference)
    exact ⟨toLex (i, p), s.kind, target, s, hi, rfl, hp, htarget⟩

theorem DanglesAt.eq {place : ℕ ×ₗ WithBot (ℕ ×ₗ ℕ)} {kind target kind' target' : String}
    (h : r.DanglesAt place kind target) (h' : r.DanglesAt place kind' target') :
    kind = kind' ∧ target = target' := by
  obtain ⟨s, hs, rfl, hnames, -⟩ := h
  obtain ⟨t, ht, rfl, hnames', -⟩ := h'
  obtain rfl : s = t := Option.some.inj (hs.symm.trans ht)
  exact ⟨rfl, hnames.eq hnames'⟩

/-- What the first pass of validation finds. -/
def firstDangling? (r : Registry) : Option TreeError :=
  r.schemas.findSome? fun s => (r.dangling? s).map (TreeError.danglingReference s.kind)

theorem exists_of_firstDangling?_eq_some {e : TreeError} (h : r.firstDangling? = some e) :
    ∃ kind target, e = .danglingReference kind target := by
  obtain ⟨s, -, he⟩ := List.exists_of_findSome?_eq_some h
  obtain ⟨target, -, rfl⟩ := Option.map_eq_some_iff.1 he
  exact ⟨s.kind, target, rfl⟩

namespace Coherent

theorem contains_eq_false_iff (h : r.Coherent) (k : String) : r.contains k = false ↔ k ∉ r.kinds := by
  rw [← Bool.not_eq_true, h.contains_iff_mem_kinds]

/-- The first pass is a search for references that dangle. -/
theorem firstOf_firstDangling? (h : r.Coherent) :
    FirstOf (fun place e => ∃ kind target, r.DanglesAt place kind target ∧
      TreeError.danglingReference kind target = e) r.firstDangling? := by
  have hschema := fun s : NodeSchema =>
    (NodeSchema.firstOf_find?_references s fun k => !r.contains k).map
      (TreeError.danglingReference s.kind)
  apply (FirstOf.findSome? r.schemas hschema).congr
  intro place e
  simp only [DanglesAt, Bool.not_eq_true', h.contains_eq_false_iff]
  grind

theorem firstDangling?_eq_some_iff (h : r.Coherent) {kind target : String} :
    r.firstDangling? = some (.danglingReference kind target) ↔ r.FirstDangling kind target := by
  rw [h.firstOf_firstDangling?.eq_some_iff]
  · simp only [FirstDangling, TreeError.danglingReference.injEq]
    grind
  · rintro place e e' ⟨k, t, hk, rfl⟩ ⟨k', t', hk', rfl⟩
    obtain ⟨rfl, rfl⟩ := hk.eq hk'
    rfl

theorem firstDangling?_eq_none_iff (h : r.Coherent) : r.firstDangling? = none ↔ ¬ r.Dangles := by
  rw [h.firstOf_firstDangling?.eq_none_iff, ← exists_danglesAt_iff]
  grind

/-- Where anything dangles, something is the first to do so. -/
theorem exists_firstDangling_iff (h : r.Coherent) :
    (∃ kind target, r.FirstDangling kind target) ↔ r.Dangles := by
  constructor
  · rintro ⟨kind, target, place, hat, -⟩
    exact exists_danglesAt_iff.1 ⟨place, kind, target, hat⟩
  · intro hdangles
    cases hfound : r.firstDangling? with
    | none => exact absurd hdangles (h.firstDangling?_eq_none_iff.1 hfound)
    | some e =>
        obtain ⟨kind, target, rfl⟩ := exists_of_firstDangling?_eq_some hfound
        exact ⟨kind, target, h.firstDangling?_eq_some_iff.1 hfound⟩

end Coherent

/-! ## Endless chains -/

/-- From a kind an infinite chain of parents starts, all of them registered. -/
def Endless (r : Registry) (k : String) : Prop :=
  ∃ chain, ParentChain r.schemas chain ∧ (chain 0).kind = k

/-- Of the kinds from which an infinite chain of parents starts, the one that was registered first. -/
def FirstEndless (r : Registry) (k : String) : Prop :=
  ∃ before after, r.kinds = before ++ k :: after ∧ r.Endless k ∧ ∀ k' ∈ before, ¬ r.Endless k'

/-- What the second pass of validation finds. -/
def firstEndless? (r : Registry) : Option String := r.kinds.find? r.isEndless

namespace Coherent

theorem firstEndless?_eq_some_iff (h : r.Coherent) {k : String} :
    r.firstEndless? = some k ↔ r.FirstEndless k := by
  rw [firstEndless?, List.find?_eq_some_iff_append]
  simp only [Bool.not_eq_true', ← Bool.not_eq_true, h.isEndless_iff, FirstEndless, Endless]
  grind

theorem firstEndless?_eq_none_iff (h : r.Coherent) :
    r.firstEndless? = none ↔ ∀ k ∈ r.kinds, ¬ r.Endless k := by
  rw [firstEndless?, List.find?_eq_none]
  simp only [h.isEndless_iff, Endless]

/-- Where any chain is endless, some kind is the first to begin one. -/
theorem exists_firstEndless_iff (h : r.Coherent) :
    (∃ k, r.FirstEndless k) ↔ ∃ k ∈ r.kinds, r.Endless k := by
  simp only [← h.firstEndless?_eq_some_iff]
  rw [← Option.isSome_iff_exists, Option.isSome_iff_ne_none, ne_eq, h.firstEndless?_eq_none_iff]
  simp only [not_forall, not_not, exists_prop]

end Coherent

/-! ## The answer -/

/-- Validation answers what its first pass finds, else what its second pass finds. -/
theorem validate_eq (r : Registry) :
    r.validate =
      match r.firstDangling?, r.firstEndless? with
      | some e, _ => .error e
      | none, some k => .error (.inheritanceCycle k)
      | none, none => .ok () := by
  have hkinds : r.firstEndless? =
      (r.schemas.find? fun s => r.isEndless s.kind).map NodeSchema.kind := List.find?_map
  unfold validate
  rw [hkinds, firstDangling?]
  cases r.schemas.findSome? fun s => (r.dangling? s).map (TreeError.danglingReference s.kind) with
  | some e => rfl
  | none => cases r.schemas.find? fun s => r.isEndless s.kind <;> rfl

namespace Coherent

theorem validate_eq_dangling_iff (h : r.Coherent) {kind target : String} :
    r.validate = .error (.danglingReference kind target) ↔ r.FirstDangling kind target := by
  rw [validate_eq, ← h.firstDangling?_eq_some_iff]
  cases r.firstDangling? <;> cases r.firstEndless? <;> simp

theorem validate_eq_cycle_iff (h : r.Coherent) {k : String} :
    r.validate = .error (.inheritanceCycle k) ↔ ¬ r.Dangles ∧ r.FirstEndless k := by
  rw [validate_eq, ← h.firstDangling?_eq_none_iff, ← h.firstEndless?_eq_some_iff]
  cases hfound : r.firstDangling? with
  | some e =>
      obtain ⟨kind, target, rfl⟩ := exists_of_firstDangling?_eq_some hfound
      simp
  | none => cases r.firstEndless? <;> simp

theorem validate_eq_ok_iff_not (h : r.Coherent) :
    r.validate = .ok () ↔ ¬ r.Dangles ∧ ∀ k ∈ r.kinds, ¬ r.Endless k := by
  rw [validate_eq, ← h.firstDangling?_eq_none_iff, ← h.firstEndless?_eq_none_iff]
  cases r.firstDangling? <;> cases r.firstEndless? <;> simp

end Coherent

/-- **The answer of validation is exact**, on every registry that calls have made.  It is what walks find
that remember the kinds they have met, and such walks end.  It is a dangling reference if some parent or
field type refers to a kind that is not registered, and then the first such reference: schemas in order of
registration, in a schema the parent before the types, fields and types as declared.  Otherwise it is a
cycle if some registered kind has an infinite chain of parents, and the kind named is the first registered
of these.  Otherwise nothing is reported, and no other answer is given. -/
theorem validate_exact (calls : List NodeSchema) :
    let r := ofCalls calls
    r.validate = r.validateByWalks ∧
      ((∃ kind target, r.validate = .error (.danglingReference kind target)) ↔ r.Dangles) ∧
      (∀ kind target, r.validate = .error (.danglingReference kind target) ↔
        r.FirstDangling kind target) ∧
      ((∃ k, r.validate = .error (.inheritanceCycle k)) ↔
        ¬ r.Dangles ∧ ∃ k ∈ r.kinds, r.Endless k) ∧
      (∀ k, r.validate = .error (.inheritanceCycle k) ↔ ¬ r.Dangles ∧ r.FirstEndless k) ∧
      (r.validate = .ok () ↔ ¬ r.Dangles ∧ ¬ ∃ k ∈ r.kinds, r.Endless k) := by
  intro r
  have h : r.Coherent := (grown_ofCalls calls).coherent
  refine ⟨h.validate_eq_validateByWalks, ?_, fun _ _ => h.validate_eq_dangling_iff, ?_,
    fun _ => h.validate_eq_cycle_iff, ?_⟩
  · simp only [h.validate_eq_dangling_iff]
    exact h.exists_firstDangling_iff
  · simp only [h.validate_eq_cycle_iff, exists_and_left, h.exists_firstEndless_iff]
  · rw [h.validate_eq_ok_iff_not]
    simp only [not_exists, not_and]

/-- The second schema has an endless chain and a type that dangles; what is reported is the type of the
first one, since its parent is registered. -/
example :
    (ofCalls [⟨"a", some "b", none, [⟨"x", [.int, .node "c"], .needed, none⟩]⟩,
      ⟨"b", some "b", none, [⟨"x", [.node "d"], .needed, none⟩]⟩]).validate
        = .error (.danglingReference "a" "c") := by decide

end Registry

end TreeSchema
