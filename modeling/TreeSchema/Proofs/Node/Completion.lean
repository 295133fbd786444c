/-
# TreeSchema.Proofs.Node.Completion — finishing a tree is a search along its walk.

Finishing a tree goes down through the slots and builds the path to a failure on the way back up.  The
walk of the tree says the same without recursion: the failure reported is the first unfinished visit
of the walk, at its path.  From this follow that a tree is finished exactly when every node in it is,
and what the report of an unfinished tree names.

Only nodes stored directly in a slot are gone into, never those of a nested sequence.  Nothing is
missed, because the slots of a sound node hold no sequence as a value.
-/
import TreeSchema.Proofs.Node.Walk
import TreeSchema.Proofs.Scene

namespace TreeSchema

/-! ## What a single node lacks -/

/-- Whether a field still lacks a required value: a needed one is unset, or one that needs elements
has none. -/
def FieldSpec.lacks (f : FieldSpec) (s : Slot) : Bool :=
  match f.multiplicity, s with
  | .needed, .unset => true
  | .oneOrMore, .many [] => true
  | _, _ => false

namespace Node

variable {n : Node}

/-- A sound node misses exactly the fields that lack a value. -/
theorem Sound.missing_eq (h : n.Sound) :
    n.missing = (n.fields.filter fun p => p.1.lacks p.2).map fun p => p.1.name := by
  unfold missing
  congr 1
  refine List.filter_congr ?_
  rintro ⟨f, s⟩ hp
  have hfit := h.fits (f, s) hp
  cases hm : f.multiplicity <;> simp only [Slot.Fits, hm] at hfit
  · rcases hfit with rfl | ⟨v, rfl, -⟩ <;>
      simp [FieldSpec.lacks, Multiplicity.isSatisfiedBy, hm, Slot.isSet]
  · simp [FieldSpec.lacks, Multiplicity.isSatisfiedBy, hm]
  · simp [FieldSpec.lacks, Multiplicity.isSatisfiedBy, hm]
  · obtain ⟨items, rfl, -⟩ := hfit
    cases items <;> simp [FieldSpec.lacks, Multiplicity.isSatisfiedBy, hm, Slot.asMany?]

theorem finalize_eq_ok_iff : n.finalize = .ok () ↔ n.missing = [] := by
  unfold finalize
  cases n.missing <;> simp

theorem finalize_of_missing (h : n.missing ≠ []) :
    n.finalize = .error (.incomplete n.kind n.missing) := by
  unfold finalize
  rw [if_neg (by simpa using h)]

end Node

/-! ## The first fault of a list of visits -/

/-- An error seen from the start of the path to it. -/
def TreeError.placed : List PathStep → TreeError → TreeError
  | [], e => e
  | p :: path, e => .nested (PathStep.join (p :: path)) e

/-- A visit to a node that is not finished. -/
def Visit.unfinished (p : Visit) : Bool := !p.2.missing.isEmpty

/-- The error of a visit to an unfinished node, at its path. -/
def Visit.fault (p : Visit) : TreeError :=
  TreeError.placed p.1 (.incomplete p.2.kind p.2.missing)

/-- The fault of the first visit to an unfinished node. -/
def firstFault (visits : List Visit) : Except TreeError Unit :=
  match visits.find? Visit.unfinished with
  | some p => .error p.fault
  | none => .ok ()

theorem Visit.fault_under (step : PathStep) (p : Visit) :
    (p.under step).fault = p.fault.within step.text := by
  obtain ⟨path, n⟩ := p
  cases path with
  | nil => simp [under, fault, TreeError.placed, TreeError.within]
  | cons q path => simp [under, fault, TreeError.placed, TreeError.within, PathStep.join_cons]

theorem firstFault_append (xs ys : List Visit) :
    firstFault (xs ++ ys) =
      match firstFault xs with
      | .error e => .error e
      | .ok () => firstFault ys := by
  unfold firstFault
  rw [List.find?_append]
  cases xs.find? Visit.unfinished <;> rfl

theorem firstFault_map_under (step : PathStep) (xs : List Visit) :
    firstFault (xs.map (Visit.under step)) =
      match firstFault xs with
      | .error e => .error (e.within step.text)
      | .ok () => .ok () := by
  have hsame : Visit.unfinished ∘ Visit.under step = Visit.unfinished := rfl
  unfold firstFault
  rw [List.find?_map, hsame]
  cases xs.find? Visit.unfinished with
  | none => rfl
  | some p => exact congrArg _ (Visit.fault_under step p)

theorem firstFault_visit_cons (n : Node) (xs : List Visit) :
    firstFault (([], n) :: xs) =
      match n.finalize with
      | .error e => .error e
      | .ok () => firstFault xs := by
  by_cases hm : n.missing = []
  · have hn : Visit.unfinished ([], n) = false := by simp [Visit.unfinished, hm]
    rw [Node.finalize_eq_ok_iff.2 hm, firstFault, List.find?_cons_of_neg (by simp [hn])]
    rfl
  · have hn : Visit.unfinished ([], n) = true := by simpa [Visit.unfinished] using hm
    rw [Node.finalize_of_missing hm, firstFault, List.find?_cons_of_pos hn]
    rfl

/-- No fault is found exactly when every node visited is finished. -/
theorem firstFault_eq_ok_iff (xs : List Visit) :
    firstFault xs = .ok () ↔ ∀ p ∈ xs, p.2.finalize = .ok () := by
  have hvisit : ∀ p : Visit, p.2.finalize = .ok () ↔ ¬ p.unfinished = true := by
    intro p
    rw [Node.finalize_eq_ok_iff]
    simp [Visit.unfinished]
  simp only [hvisit, ← List.find?_eq_none]
  unfold firstFault
  cases xs.find? Visit.unfinished <;> simp

/-! ## Going down is searching along the walk -/

mutual

/-- The recursion over a deeply sound node is the search along its walk. -/
theorem Node.finalizeTree_eq_firstFault : ∀ n : Node, n.DeeplySound →
    n.finalizeTree = firstFault n.walk
  | .mk home schema slots, h => by
      have hslots : ∀ s ∈ slots, ∀ v ∈ s.values, v.isSeq = false ∧ v.Sound := by
        intro s hs v hv
        obtain ⟨f, -, hfit⟩ := h.sound.exists_field hs
        exact ⟨(hfit.takes v hv).1, h.of_mem_slots hs v hv⟩
      rw [Node.walk, firstFault_visit_cons,
        ← Slot.finalizeFields_eq_firstFault schema.fields slots hslots]
      rfl

theorem Slot.finalizeFields_eq_firstFault : ∀ (fs : List FieldSpec) (ss : List Slot),
    (∀ s ∈ ss, ∀ v ∈ s.values, v.isSeq = false ∧ v.Sound) →
      Slot.finalizeFields fs ss = firstFault (Slot.walkFields fs ss)
  | [], _, _ => by simp [Slot.finalizeFields, Slot.walkFields, firstFault]
  | _ :: _, [], _ => by simp [Slot.finalizeFields, Slot.walkFields, firstFault]
  | f :: fs, s :: ss, h => by
      rw [Slot.walkFields, firstFault_append,
        ← Slot.finalizeIn_eq_firstFault f.name s (h s List.mem_cons_self),
        ← Slot.finalizeFields_eq_firstFault fs ss fun t ht => h t (List.mem_cons_of_mem _ ht)]
      rfl

theorem Slot.finalizeIn_eq_firstFault (field : String) : ∀ s : Slot,
    (∀ v ∈ s.values, v.isSeq = false ∧ v.Sound) →
      Slot.finalizeIn field s = firstFault (s.walk ⟨field, []⟩)
  | .unset, _ => rfl
  | .single (.node n), h => by
      have hn : n.DeeplySound := (h (.node n) (List.mem_singleton_self _)).2
      rw [Slot.walk, Value.walk, firstFault_map_under,
        ← Node.finalizeTree_eq_firstFault n hn, PathStep.text_field]
      rfl
  -- here the two would differ: the walk goes into a sequence and the recursion does not
  | .single (.seq items), h => by
      have hseq := (h (.seq items) (List.mem_singleton_self _)).1
      exact absurd hseq (by simp [Value.isSeq])
  | .single .null, _ | .single (.bool _), _ | .single (.int _), _ | .single (.float _), _
  | .single (.text _), _ | .single (.identifier _), _ | .single (.singleton _), _ => rfl
  | .many items, h => by
      rw [Slot.finalizeIn, Slot.walk, Value.finalizeItems_eq_firstFault field 0 items h]

theorem Value.finalizeItems_eq_firstFault (field : String) (i : Nat) : ∀ vs : List Value,
    (∀ v ∈ vs, v.isSeq = false ∧ v.Sound) →
      Value.finalizeItems field i vs = firstFault (Value.walkItems ⟨field, []⟩ i vs)
  | [], _ => rfl
  | .node n :: vs, h => by
      have hn : n.DeeplySound := (h (.node n) List.mem_cons_self).2
      rw [Value.finalizeItems, Value.walkItems, Value.walk, firstFault_append,
        firstFault_map_under, Node.finalizeTree_eq_firstFault n hn,
        Value.finalizeItems_eq_firstFault field (i + 1) vs fun v hv =>
          h v (List.mem_cons_of_mem _ hv), PathStep.text_element_field]
      cases firstFault n.walk <;> rfl
  | .seq items :: _, h => by
      have hseq := (h (.seq items) List.mem_cons_self).1
      exact absurd hseq (by simp [Value.isSeq])
  | .null :: vs, h | .bool _ :: vs, h | .int _ :: vs, h | .float _ :: vs, h | .text _ :: vs, h
  | .identifier _ :: vs, h | .singleton _ :: vs, h =>
      Value.finalizeItems_eq_firstFault field (i + 1) vs fun v hv =>
        h v (List.mem_cons_of_mem _ hv)

end

/-! ## What finishing a tree decides and reports -/

/-- **A tree is finished exactly when the node and every node inside it is finished.** -/
theorem Node.Reachable.finalizeTree_eq_ok_iff {n : Node} (h : n.Reachable) :
    n.finalizeTree = .ok () ↔
      n.finalize = .ok () ∧ ∀ m, n.Contains m → m.finalize = .ok () := by
  have hdeep := h.deeplySound
  rw [Node.finalizeTree_eq_firstFault n hdeep, firstFault_eq_ok_iff]
  constructor
  · intro hall
    have hvisited : ∀ m, m = n ∨ n.Contains m → m.finalize = .ok () := by
      intro m hm
      obtain ⟨path, hp⟩ := hdeep.exists_visit_iff.2 hm
      exact hall _ hp
    exact ⟨hvisited n (Or.inl rfl), fun m hm => hvisited m (Or.inr hm)⟩
  · rintro ⟨hself, hinside⟩ ⟨path, m⟩ hp
    rcases hdeep.exists_visit_iff.1 ⟨path, hp⟩ with rfl | hm
    · exact hself
    · exact hinside m hm

/-- In the tree of named links the last link is not finished, so the tree is not. -/
theorem finalizeTree_outer :
    Scene.Link.outer.Reachable ∧
      ¬ (Scene.Link.outer.finalize = .ok () ∧
        ∀ m, Scene.Link.outer.Contains m → m.finalize = .ok ()) := by
  have hreach : Scene.Link.outer.Reachable :=
    ⟨Scene.Link.made, Scene.Link.reached_made, .of_name "outer" rfl⟩
  refine ⟨hreach, ?_⟩
  -- whether all nodes inside are finished is decided by finishing the tree
  rw [← hreach.finalizeTree_eq_ok_iff]
  have hreport : Scene.Link.outer.finalizeTree =
      .error (.nested "next.rest[1]" (.incomplete "link" ["names"])) := rfl
  rw [hreport]
  simp

/-- A visit is the first one of a walk whose node is not finished. -/
def Node.FirstUnfinished (n : Node) (path : List PathStep) (m : Node) : Prop :=
  ∃ before after, n.walk = before ++ (path, m) :: after ∧
    (∀ p ∈ before, p.2.finalize = .ok ()) ∧ m.finalize ≠ .ok ()

/-- A fault found is that of the first visit to an unfinished node. -/
theorem exists_of_firstFault_eq_error {xs : List Visit} {e : TreeError}
    (h : firstFault xs = .error e) :
    ∃ before p after, xs = before ++ p :: after ∧ (∀ q ∈ before, q.2.finalize = .ok ()) ∧
      p.2.missing ≠ [] ∧ e = p.fault := by
  unfold firstFault at h
  cases hf : xs.find? Visit.unfinished with
  | none => simp [hf] at h
  | some p =>
      obtain ⟨hp, before, after, hsplit, hbefore⟩ := List.find?_eq_some_iff_append.1 hf
      refine ⟨before, p, after, hsplit, ?_, by simpa [Visit.unfinished] using hp, ?_⟩
      · intro q hq
        rw [Node.finalize_eq_ok_iff]
        simpa [Visit.unfinished] using hbefore q hq
      · simpa [hf, eq_comm] using h

/-- **An unfinished tree reports the first unfinished node of the walk, at its place**: bare if it is
the node itself, and otherwise under one path, which joins the steps that lead to it.  The cause names
the fields of that node that lack a value, in the order of its schema, and is no refused write. -/
theorem Node.Reachable.finalizeTree_error {n : Node} (h : n.Reachable) {e : TreeError}
    (he : n.finalizeTree = .error e) :
    ∃ path m cause, n.FirstUnfinished path m ∧ n.Leads path m ∧ m.finalize = .error cause ∧
      cause = .incomplete m.kind
        ((m.fields.filter fun p => p.1.lacks p.2).map fun p => p.1.name) ∧
      (path = [] → m = n ∧ e = cause) ∧
      (path ≠ [] → e = .nested (PathStep.join path) cause) ∧
      e.innermost = cause ∧ e.isWrongType = false ∧ e.isWrongValue = false := by
  have hdeep := h.deeplySound
  rw [Node.finalizeTree_eq_firstFault n hdeep] at he
  obtain ⟨before, ⟨path, m⟩, after, hsplit, hbefore, hmissing, rfl⟩ :=
    exists_of_firstFault_eq_error he
  have hvisit : (path, m) ∈ n.walk := by simp [hsplit]
  have hsound : m.Sound := hdeep m (Node.reaches_of_mem_walk n hvisit)
  have hfail : m.finalize = .error (.incomplete m.kind m.missing) :=
    Node.finalize_of_missing hmissing
  refine ⟨path, m, .incomplete m.kind m.missing, ⟨before, after, hsplit, hbefore, ?_⟩,
    hdeep.mem_walk_iff.1 hvisit, hfail, by rw [hsound.missing_eq], ?_, ?_, ?_⟩
  · simp [hfail]
  · rintro rfl
    exact ⟨Node.eq_of_mem_walk_nil hvisit, rfl⟩
  · intro hne
    obtain ⟨p, rest, rfl⟩ := List.exists_cons_of_ne_nil hne
    rfl
  · cases path <;>
      simp [Visit.fault, TreeError.placed, TreeError.innermost, TreeError.isWrongType,
        TreeError.isWrongValue]

theorem finalizeTree_error_outer :
    (Scene.Link.outer.Reachable ∧ Scene.Link.outer.finalizeTree =
        .error (.nested "next.rest[1]" (.incomplete "link" ["names"]))) ∧
      ∃ path m, Scene.Link.outer.FirstUnfinished path m ∧
        PathStep.join path = "next.rest[1]" ∧
          m.finalize = .error (.incomplete "link" ["names"]) := by
  have hreach : Scene.Link.outer.Reachable :=
    ⟨Scene.Link.made, Scene.Link.reached_made, .of_name "outer" rfl⟩
  have hreport : Scene.Link.outer.finalizeTree =
      .error (.nested "next.rest[1]" (.incomplete "link" ["names"])) := rfl
  refine ⟨⟨hreach, hreport⟩, ?_⟩
  obtain ⟨path, m, cause, hfirst, -, hfail, -, hroot, hbelow, hinner, -⟩ :=
    hreach.finalizeTree_error hreport
  have hcause : cause = .incomplete "link" ["names"] := hinner.symm
  subst hcause
  refine ⟨path, m, hfirst, ?_, hfail⟩
  by_cases hnil : path = []
  · exact absurd (hroot hnil).2 (by simp)
  · simpa [eq_comm] using hbelow hnil

end TreeSchema
