/-
# TreeSchema.Proofs.Node.Walk — a tree in pre-order, with the path to each node.

A walk lists a node before the nodes inside it, fields in the order of the schema and elements in the
order of their sequence.  It goes into nested sequences as well, so that it is a walk of any node and
not only of those that hold none; a step of a path then has one place for each sequence it goes
through.  The walk of a sound node misses nothing: it meets exactly the node and what it contains, and
the path of each visit leads there by fields and single places alone.
-/
import TreeSchema.Node.Completeness
import TreeSchema.Proofs.Node.Soundness

namespace TreeSchema

/-- One step down: a field, and the places in the sequences passed through below it. -/
structure PathStep where
  field : String
  places : List Nat

namespace PathStep

/-- The step on to an element of the sequence reached. -/
def element (p : PathStep) (i : Nat) : PathStep := ⟨p.field, p.places ++ [i]⟩

/-- A step as text: the field, and each place in brackets. -/
def text (p : PathStep) : String := p.places.foldl elementStep p.field

@[simp] theorem text_field (name : String) : text ⟨name, []⟩ = name := rfl

@[simp] theorem text_element_field (name : String) (i : Nat) :
    (element ⟨name, []⟩ i).text = elementStep name i := rfl

/-- The steps joined by dots. -/
def join (path : List PathStep) : String := ".".intercalate (path.map text)

@[simp] theorem join_singleton (p : PathStep) : join [p] = p.text := by
  simp [join]

theorem join_cons (p q : PathStep) (path : List PathStep) :
    join (p :: q :: path) = p.text ++ "." ++ join (q :: path) := by
  simp [join]

end PathStep

/-- A node met on a walk, with the path that leads to it. -/
abbrev Visit := List PathStep × Node

/-- The same visit seen from one step further out. -/
def Visit.under (step : PathStep) (p : Visit) : Visit := (step :: p.1, p.2)

mutual

/-- The node, then what it holds. -/
def Node.walk : Node → List Visit
  | .mk home schema slots => ([], .mk home schema slots) :: Slot.walkFields schema.fields slots

/-- What fields hold, in order. -/
def Slot.walkFields : List FieldSpec → List Slot → List Visit
  | f :: fs, s :: ss => Slot.walk ⟨f.name, []⟩ s ++ Slot.walkFields fs ss
  | _, _ => []

/-- What one field holds. -/
def Slot.walk (step : PathStep) : Slot → List Visit
  | .unset => []
  | .single v => Value.walk step v
  | .many items => Value.walkItems step 0 items

/-- The nodes in a value, which `step` leads to. -/
def Value.walk (step : PathStep) : Value → List Visit
  | .node n => (Node.walk n).map (Visit.under step)
  | .seq items => Value.walkItems step 0 items
  | _ => []

/-- The nodes in the elements of a sequence, counted from `i`. -/
def Value.walkItems (step : PathStep) (i : Nat) : List Value → List Visit
  | [] => []
  | v :: vs => Value.walk (step.element i) v ++ Value.walkItems step (i + 1) vs

end

theorem Node.walk_eq (n : Node) :
    n.walk = ([], n) :: Slot.walkFields n.schema.fields n.slots := by
  cases n
  rfl

theorem Slot.walkFields_eq (fs : List FieldSpec) (ss : List Slot) :
    walkFields fs ss = (fs.zip ss).flatMap fun p => walk ⟨p.1.name, []⟩ p.2 := by
  induction fs generalizing ss with
  | nil => simp [walkFields]
  | cons f fs ih =>
      cases ss with
      | nil => simp [walkFields]
      | cons s ss => rw [walkFields, ih, List.zip_cons_cons, List.flatMap_cons]

theorem Value.walkItems_eq (step : PathStep) (i : Nat) (vs : List Value) :
    walkItems step i vs = (vs.zipIdx i).flatMap fun p => walk (step.element p.2) p.1 := by
  induction vs generalizing i with
  | nil => simp [walkItems]
  | cons v vs ih => rw [walkItems, ih, List.zipIdx_cons, List.flatMap_cons]

/-! ## Only the node itself has an empty path -/

mutual

theorem Value.path_ne_nil_of_mem_walk : ∀ (v : Value) {step : PathStep} {p : Visit},
    p ∈ v.walk step → p.1 ≠ []
  | .node n, step, p, hp => by
      rw [Value.walk] at hp
      obtain ⟨q, -, rfl⟩ := List.mem_map.1 hp
      exact List.cons_ne_nil step q.1
  | .seq items, step, p, hp => by
      rw [Value.walk] at hp
      exact Value.path_ne_nil_of_mem_walkItems items hp
  | .null, _, p, hp | .bool _, _, p, hp | .int _, _, p, hp | .float _, _, p, hp
  | .text _, _, p, hp | .identifier _, _, p, hp | .singleton _, _, p, hp => by
      simp [Value.walk] at hp

theorem Value.path_ne_nil_of_mem_walkItems : ∀ (vs : List Value) {step : PathStep} {i : Nat}
    {p : Visit}, p ∈ Value.walkItems step i vs → p.1 ≠ []
  | [], _, _, p, hp => by simp [Value.walkItems] at hp
  | v :: vs, step, i, p, hp => by
      rw [Value.walkItems, List.mem_append] at hp
      rcases hp with hp | hp
      · exact Value.path_ne_nil_of_mem_walk v hp
      · exact Value.path_ne_nil_of_mem_walkItems vs hp

end

theorem Slot.path_ne_nil_of_mem_walkFields {fs : List FieldSpec} {ss : List Slot} {p : Visit}
    (hp : p ∈ walkFields fs ss) : p.1 ≠ [] := by
  rw [walkFields_eq, List.mem_flatMap] at hp
  obtain ⟨⟨f, s⟩, -, hp⟩ := hp
  cases s with
  | unset => simp [walk] at hp
  | single v => exact Value.path_ne_nil_of_mem_walk v hp
  | many items => exact Value.path_ne_nil_of_mem_walkItems items hp

/-- The one visit with an empty path is that of the node walked. -/
theorem Node.eq_of_mem_walk_nil {n m : Node} (h : (([], m) : Visit) ∈ n.walk) : m = n := by
  rw [walk_eq, List.mem_cons] at h
  rcases h with h | h
  · exact congrArg Prod.snd h
  · exact absurd rfl (Slot.path_ne_nil_of_mem_walkFields h)

/-! ## The walk meets what lies inside, and nothing else -/

mutual

theorem Node.reaches_of_mem_walk : ∀ (n : Node) {p : Visit},
    p ∈ n.walk → (Value.node n).Reaches p.2
  | .mk home schema slots, p, hp => by
      rw [Node.walk, List.mem_cons] at hp
      rcases hp with rfl | hp
      · exact .here _
      · obtain ⟨s, hs, v, hv, hreach⟩ := Slot.reaches_of_mem_walkFields schema.fields slots hp
        exact .slot hs hv hreach

theorem Slot.reaches_of_mem_walkFields : ∀ (fs : List FieldSpec) (ss : List Slot) {p : Visit},
    p ∈ Slot.walkFields fs ss → ∃ s ∈ ss, ∃ v ∈ s.values, v.Reaches p.2
  | [], _, p, hp => by simp [Slot.walkFields] at hp
  | _ :: _, [], p, hp => by simp [Slot.walkFields] at hp
  | f :: fs, s :: ss, p, hp => by
      rw [Slot.walkFields, List.mem_append] at hp
      rcases hp with hp | hp
      · obtain ⟨v, hv, hreach⟩ := Slot.reaches_of_mem_walk s hp
        exact ⟨s, List.mem_cons_self, v, hv, hreach⟩
      · obtain ⟨t, ht, hrest⟩ := Slot.reaches_of_mem_walkFields fs ss hp
        exact ⟨t, List.mem_cons_of_mem _ ht, hrest⟩

theorem Slot.reaches_of_mem_walk : ∀ (s : Slot) {step : PathStep} {p : Visit},
    p ∈ s.walk step → ∃ v ∈ s.values, v.Reaches p.2
  | .unset, step, p, hp => by simp [Slot.walk] at hp
  | .single v, step, p, hp => by
      rw [Slot.walk] at hp
      exact ⟨v, List.mem_singleton_self v, Value.reaches_of_mem_walk v hp⟩
  | .many items, step, p, hp => by
      rw [Slot.walk] at hp
      exact Value.reaches_of_mem_walkItems items hp

theorem Value.reaches_of_mem_walk : ∀ (v : Value) {step : PathStep} {p : Visit},
    p ∈ v.walk step → v.Reaches p.2
  | .node n, step, p, hp => by
      rw [Value.walk] at hp
      obtain ⟨q, hq, rfl⟩ := List.mem_map.1 hp
      have hreach : (Value.node n).Reaches q.2 := Node.reaches_of_mem_walk n hq
      exact hreach
  | .seq items, step, p, hp => by
      rw [Value.walk] at hp
      obtain ⟨v, hv, hreach⟩ := Value.reaches_of_mem_walkItems items hp
      exact .element hv hreach
  | .null, _, p, hp | .bool _, _, p, hp | .int _, _, p, hp | .float _, _, p, hp
  | .text _, _, p, hp | .identifier _, _, p, hp | .singleton _, _, p, hp => by
      simp [Value.walk] at hp

theorem Value.reaches_of_mem_walkItems : ∀ (vs : List Value) {step : PathStep} {i : Nat} {p : Visit},
    p ∈ Value.walkItems step i vs → ∃ v ∈ vs, v.Reaches p.2
  | [], _, _, p, hp => by simp [Value.walkItems] at hp
  | v :: vs, step, i, p, hp => by
      rw [Value.walkItems, List.mem_append] at hp
      rcases hp with hp | hp
      · exact ⟨v, List.mem_cons_self, Value.reaches_of_mem_walk v hp⟩
      · obtain ⟨w, hw, hreach⟩ := Value.reaches_of_mem_walkItems vs hp
        exact ⟨w, List.mem_cons_of_mem _ hw, hreach⟩

end

/-- A node in a value of sound nodes is met on the way through the value. -/
theorem Value.Reaches.exists_visit {v : Value} {m : Node} (h : v.Reaches m) (hv : v.Sound)
    (step : PathStep) : ∃ path, (path, m) ∈ v.walk step := by
  induction h generalizing step with
  | here n =>
      refine ⟨[step], ?_⟩
      rw [walk, Node.walk_eq, List.map_cons]
      exact List.mem_cons_self
  | @element items w m hw hm ih =>
      have hw' : w.Sound := fun k hk => hv k (.element hw hk)
      obtain ⟨i, hi⟩ := List.mem_iff_getElem?.1 hw
      obtain ⟨path, hpath⟩ := ih hw' (step.element i)
      rw [walk, walkItems_eq]
      exact ⟨path, List.mem_flatMap.2 ⟨(w, i), List.mem_zipIdx_iff_getElem?.2 hi, hpath⟩⟩
  | @slot n m s w hs hw hm ih =>
      have hw' : w.Sound := fun k hk => hv k (.slot hs hw hk)
      obtain ⟨f, hf, hfit⟩ := (hv n (.here n)).exists_field hs
      -- first within the slot, then out through the field that holds it
      have hslot : ∃ path, (path, m) ∈ s.walk ⟨f.name, []⟩ := by
        cases s with
        | unset => simp [Slot.values] at hw
        | single u =>
            obtain rfl := List.mem_singleton.1 hw
            exact ih hw' _
        | many items =>
            obtain ⟨i, hi⟩ := List.mem_iff_getElem?.1 hw
            obtain ⟨path, hpath⟩ := ih hw' (PathStep.element ⟨f.name, []⟩ i)
            rw [Slot.walk, walkItems_eq]
            exact ⟨path, List.mem_flatMap.2 ⟨(w, i), List.mem_zipIdx_iff_getElem?.2 hi, hpath⟩⟩
      obtain ⟨path, hpath⟩ := hslot
      refine ⟨step :: path, ?_⟩
      rw [walk, List.mem_map]
      refine ⟨(path, m), ?_, rfl⟩
      rw [Node.walk_eq, Slot.walkFields_eq]
      exact List.mem_cons_of_mem _ (List.mem_flatMap.2 ⟨(f, s), hf, hpath⟩)

/-- The walk of a deeply sound node meets exactly the node and what it contains. -/
theorem Node.DeeplySound.exists_visit_iff {n m : Node} (h : n.DeeplySound) :
    (∃ path, (path, m) ∈ n.walk) ↔ m = n ∨ n.Contains m := by
  rw [← Value.reaches_node_iff]
  constructor
  · rintro ⟨path, hp⟩
    exact Node.reaches_of_mem_walk n hp
  · intro hm
    obtain ⟨path, hp⟩ := hm.exists_visit h ⟨"", []⟩
    rw [Value.walk] at hp
    obtain ⟨q, hq, hsame⟩ := List.mem_map.1 hp
    obtain rfl : q.2 = m := congrArg Prod.snd hsame
    exact ⟨q.1, hq⟩

/-! ## Where the paths of a walk lead -/

/-- A path leads to a node when each of its steps names a field and, for a sequence field, the place
of the element that the next step starts from. -/
inductive Node.Leads : Node → List PathStep → Node → Prop
  | here (n : Node) : Leads n [] n
  | single {n c m : Node} {f : FieldSpec} {path : List PathStep} :
      (f, .single (.node c)) ∈ n.fields → Leads c path m → Leads n (⟨f.name, []⟩ :: path) m
  | element {n c m : Node} {f : FieldSpec} {items : List Value} {i : Nat} {path : List PathStep} :
      (f, .many items) ∈ n.fields → items[i]? = some (.node c) → Leads c path m →
        Leads n (⟨f.name, [i]⟩ :: path) m

/-- A value that is no sequence is walked by walking the node that it is. -/
theorem Value.mem_walk_iff {v : Value} (hv : v.isSeq = false) {step s : PathStep}
    {path : List PathStep} {m : Node} :
    (s :: path, m) ∈ v.walk step ↔ s = step ∧ ∃ c : Node, v = .node c ∧ (path, m) ∈ c.walk := by
  cases v with
  | node c => simp [walk, Visit.under, eq_comm, and_comm]
  | seq items => simp [Value.isSeq] at hv
  | _ => simp [walk]

/-- A slot that holds no sequence as a value is walked by walking the nodes that it holds. -/
theorem Slot.mem_walk_iff {s : Slot} (hs : ∀ v ∈ s.values, v.isSeq = false) {field : String}
    {step : PathStep} {path : List PathStep} {m : Node} :
    (step :: path, m) ∈ s.walk ⟨field, []⟩ ↔
      (step = ⟨field, []⟩ ∧ ∃ c : Node, s = .single (.node c) ∧ (path, m) ∈ c.walk) ∨
        ∃ (items : List Value) (i : Nat) (c : Node), step = ⟨field, [i]⟩ ∧ s = .many items ∧
          items[i]? = some (.node c) ∧ (path, m) ∈ c.walk := by
  cases s with
  | unset => simp [walk]
  | single v =>
      rw [walk, Value.mem_walk_iff (hs v (List.mem_singleton_self v))]
      simp
  | many items =>
      rw [walk, Value.walkItems_eq, List.mem_flatMap]
      constructor
      · rintro ⟨⟨v, i⟩, hvi, hp⟩
        have hi : items[i]? = some v := List.mem_zipIdx_iff_getElem?.1 hvi
        obtain ⟨hstep, c, rfl, hc⟩ :=
          (Value.mem_walk_iff (hs v (List.mem_of_getElem? hi))).1 hp
        exact Or.inr ⟨items, i, c, hstep, rfl, hi, hc⟩
      · rintro (⟨-, c, hsame, -⟩ | ⟨_, i, c, hstep, hsame, hi, hc⟩)
        · exact Slot.noConfusion hsame
        · obtain rfl := Slot.many.inj hsame
          have hvi : (Value.node c, i) ∈ items.zipIdx := List.mem_zipIdx_iff_getElem?.2 hi
          exact ⟨_, hvi, (Value.mem_walk_iff rfl).2 ⟨hstep, c, rfl, hc⟩⟩

/-- In a deeply sound node the paths of the walk are those that lead somewhere. -/
theorem Node.DeeplySound.mem_walk_iff {n m : Node} (h : n.DeeplySound) {path : List PathStep} :
    (path, m) ∈ n.walk ↔ n.Leads path m := by
  induction path generalizing n with
  | nil =>
      constructor
      · intro hp
        obtain rfl := Node.eq_of_mem_walk_nil hp
        exact .here m
      · intro hp
        cases hp
        rw [Node.walk_eq]
        exact List.mem_cons_self
  | cons step path ih =>
      have hfields : (step :: path, m) ∈ n.walk ↔
          ∃ p ∈ n.fields, (step :: path, m) ∈ p.2.walk ⟨p.1.name, []⟩ := by
        rw [Node.walk_eq, List.mem_cons, Slot.walkFields_eq, List.mem_flatMap]
        simp [Node.fields]
      -- no slot holds a sequence as a value, so a step has one place at most
      have hflat : ∀ p ∈ n.fields, ∀ v ∈ p.2.values, v.isSeq = false ∧ v.Sound := by
        intro p hp v hv
        exact ⟨((h.sound.fits p hp).takes v hv).1, h.of_mem_slots (List.of_mem_zip hp).2 v hv⟩
      rw [hfields]
      constructor
      · rintro ⟨⟨f, s⟩, hp, hm⟩
        rcases (Slot.mem_walk_iff fun v hv => (hflat _ hp v hv).1).1 hm with
          ⟨rfl, c, rfl, hc⟩ | ⟨items, i, c, rfl, rfl, hi, hc⟩
        · have hsound : c.DeeplySound := (hflat _ hp _ (List.mem_singleton_self _)).2
          exact .single hp ((ih hsound).1 hc)
        · have hsound : c.DeeplySound := (hflat _ hp _ (List.mem_of_getElem? hi)).2
          exact .element hp hi ((ih hsound).1 hc)
      · intro hm
        cases hm with
        | single hp hc =>
            have hsound := (hflat _ hp _ (List.mem_singleton_self _)).2
            refine ⟨_, hp, (Slot.mem_walk_iff fun v hv => (hflat _ hp v hv).1).2 (Or.inl ?_)⟩
            exact ⟨rfl, _, rfl, (ih hsound).2 hc⟩
        | element hp hi hc =>
            have hsound := (hflat _ hp _ (List.mem_of_getElem? hi)).2
            refine ⟨_, hp, (Slot.mem_walk_iff fun v hv => (hflat _ hp v hv).1).2 (Or.inr ?_)⟩
            exact ⟨_, _, _, rfl, rfl, hi, (ih hsound).2 hc⟩

end TreeSchema
