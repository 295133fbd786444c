/-
# TreeSchema.Proofs.Node.Elementwise — a sequence written at once or element by element.

A sequence field is filled in two ways.  Setting it judges a whole list and looks for the first element
that is refused; pushing judges one element and counts those already there.  The two agree: a list is
accepted at once exactly if its elements are accepted one after the other by the emptied field, the node is
then the same, and a refusal is that of the first element that is refused, with its position.  They differ
in what a refusal leaves, since pushing keeps the elements before it and setting keeps the field.

That a field has elements to append to is no matter of course.  It holds of nodes that a run can show,
whose sequence fields always hold a sequence of elements that the field takes.
-/
import TreeSchema.Proofs.Node.Atomicity

namespace TreeSchema

/-! ## Work in place seen from outside -/

namespace InPlace

/-- What work in place answers, and the node it leaves. -/
def outcome {α : Type} (x : InPlace Id α) (n : Node) : Except TreeError α × Node :=
  Id.run (x.run.run n)

variable {α β : Type} {n n' : Node}

theorem outcome_pure (a : α) (n : Node) : (pure a : InPlace Id α).outcome n = (.ok a, n) := rfl

theorem outcome_bind_of_ok {x : InPlace Id α} {a : α} (h : x.outcome n = (.ok a, n'))
    (f : α → InPlace Id β) : (x >>= f).outcome n = (f a).outcome n' := by
  have hx : x.run.run n = pure (.ok a, n') := h
  unfold outcome
  rw [run_bind, hx, pure_bind]

theorem outcome_bind_of_error {x : InPlace Id α} {e : TreeError} (h : x.outcome n = (.error e, n'))
    (f : α → InPlace Id β) : (x >>= f).outcome n = (.error e, n') := by
  have hx : x.run.run n = pure (.error e, n') := h
  unfold outcome
  rw [run_bind, hx, pure_bind]
  rfl

/-- Empties a sequence field and gives it elements one after the other, up to the first that is
refused. -/
def refill {m : Type → Type} [Monad m] (field : String) (xs : List Value) : InPlace m Unit := do
  clear field
  xs.forM (push field)

end InPlace

namespace Write

variable {w : Write} {n n' : Node}

theorem outcome_inPlace (w : Write) (n : Node) :
    w.inPlace.outcome n = ((w.run n).map fun _ => (), w.after n) :=
  congrArg Id.run (w.run_inPlace n)

theorem outcome_of_ok (h : w.run n = .ok n') : w.inPlace.outcome n = (.ok (), n') := by
  rw [outcome_inPlace, after, h]
  rfl

theorem outcome_of_error {e : TreeError} (h : w.run n = .error e) :
    w.inPlace.outcome n = (.error e, n) := by
  rw [outcome_inPlace, after, h]
  rfl

end Write

/-! ## The elements of a field -/

/-- A sequence field of a node holds elements, all of which it takes. -/
structure Node.Holds (n : Node) (field : String) (f : FieldSpec) (i : Nat) (items : List Value) :
    Prop where
  located : n.locate field = .ok (f, i)
  sequence : f.multiplicity.isSequence = true
  slot : n.slots[i]? = some (.many items)
  taken : ∀ v ∈ items, f.Takes n.home v

/-- In a sound node every sequence field holds elements. -/
theorem Node.Sound.exists_holds {n : Node} (h : n.Sound) {field : String} {f : FieldSpec} {i : Nat}
    (hl : n.locate field = .ok (f, i)) (hm : f.multiplicity.isSequence = true) :
    ∃ items, n.Holds field f i items := by
  obtain ⟨s, hs, hfits⟩ := h.exists_slot (getElem?_of_locate hl)
  obtain ⟨items, rfl, htaken⟩ := (Slot.fits_iff_of_sequence hm).1 hfits
  exact ⟨items, hl, hm, hs, htaken⟩

namespace Node.Holds

variable {n : Node} {field : String} {f : FieldSpec} {i : Nat} {items : List Value}

theorem slotAt (h : n.Holds field f i items) : n.slotAt i = .many items := by
  rw [Node.slotAt, List.getD_eq_getElem?_getD, h.slot]
  rfl

theorem elementsAt (h : n.Holds field f i items) : n.elementsAt i = items := by
  rw [Node.elementsAt, h.slotAt]
  rfl

theorem get (h : n.Holds field f i items) : n.get field = .ok (.many items) :=
  get_eq_ok_iff.2 ⟨_, h.located, h.slotAt.symm⟩

theorem taken_append (h : n.Holds field f i items) {x : Value} (hx : f.Takes n.home x) :
    ∀ v ∈ items ++ [x], f.Takes n.home v := by
  simpa [or_imp, forall_and] using ⟨h.taken, hx⟩

/-- The field may hold any other elements that it takes. -/
theorem put (h : n.Holds field f i items) {xs : List Value} (hxs : ∀ v ∈ xs, f.Takes n.home v) :
    (n.putSlot i (.many xs)).Holds field f i xs := by
  refine ⟨h.located, h.sequence, ?_, hxs⟩
  have hi : i < n.slots.length := (List.getElem?_eq_some_iff.1 h.slot).1
  rw [slots_putSlot, List.getElem?_set_self hi]

/-! ### One call -/

theorem outcome_clear (h : n.Holds field f i items) :
    (InPlace.clear field).outcome n = (.ok (), n.putSlot i (.many [])) := by
  have hdefault : f.multiplicity.defaultSlot = .many [] := by
    rw [Multiplicity.defaultSlot, if_pos h.sequence]
  have hclear : n.clear field = .ok (n.putSlot i (.many [])) :=
    clear_eq_ok_iff.2 ⟨_, h.located, by rw [hdefault]⟩
  exact Write.outcome_of_ok (w := .clear field) hclear

theorem outcome_set_of_takes (h : n.Holds field f i items) {xs : List Value}
    (hxs : ∀ v ∈ xs, f.Takes n.home v) :
    (InPlace.set field (.seq xs)).outcome n = (.ok (), n.putSlot i (.many xs)) := by
  have haccept : n.accept f (.seq xs) = .ok (.many xs) :=
    accept_eq_ok_iff.2 (Or.inr ⟨h.sequence, xs, rfl, hxs, rfl⟩)
  have hset : n.set field (.seq xs) = .ok (n.putSlot i (.many xs)) :=
    set_eq_ok_iff.2 ⟨_, h.located, write_eq_ok_iff.2 ⟨_, haccept, rfl⟩⟩
  exact Write.outcome_of_ok (w := .set field (.seq xs)) hset

theorem outcome_set_of_refused (h : n.Holds field f i items) {before : List Value}
    (hbefore : ∀ v ∈ before, f.Takes n.home v) {x : Value} (hx : ¬ f.Takes n.home x)
    (rest : List Value) :
    (InPlace.set field (.seq (before ++ x :: rest))).outcome n
      = (.error (n.refusal f x (.elementNotAdmitted before.length f.typeNames)), n) := by
  have hfirst := firstRefused?_append hbefore hx rest
  have hset : n.set field (.seq (before ++ x :: rest))
      = .error (n.refusal f x (.elementNotAdmitted before.length f.typeNames)) := by
    simp [Node.set, h.located, Node.write, accept, h.sequence, hfirst, Except.map]
  exact Write.outcome_of_error (w := .set field (.seq (before ++ x :: rest))) hset

theorem outcome_push_of_takes (h : n.Holds field f i items) {x : Value}
    (hx : f.Takes n.home x) :
    (InPlace.push field x).outcome n = (.ok (), n.putSlot i (.many (items ++ [x]))) := by
  have hpush : n.push field x = .ok (n.putSlot i (.many (items ++ [x]))) :=
    push_eq_ok_iff.2 ⟨f, i, h.located, h.sequence, hx, by rw [h.slotAt, Slot.append]⟩
  exact Write.outcome_of_ok (w := .push field x) hpush

theorem outcome_push_of_refused (h : n.Holds field f i items) {x : Value}
    (hx : ¬ f.Takes n.home x) :
    (InPlace.push field x).outcome n
      = (.error (n.refusal f x (.elementNotAdmitted items.length f.typeNames)), n) := by
  have hrefused : takesElement n.home f x = false := by
    simpa [← takesElement_iff] using hx
  have hpush : n.push field x
      = .error (n.refusal f x (.elementNotAdmitted items.length f.typeNames)) := by
    simp [Node.push, h.located, h.sequence, hrefused, h.elementsAt]
  exact Write.outcome_of_error (w := .push field x) hpush

/-- **One element pushed is the whole sequence set anew**, with that element at its end: the answer is
the same, and so is the node. -/
theorem outcome_push_eq_outcome_set (h : n.Holds field f i items) (x : Value) :
    (InPlace.push field x).outcome n
      = (InPlace.set field (.seq (items ++ [x]))).outcome n := by
  by_cases hx : f.Takes n.home x
  · rw [h.outcome_push_of_takes hx, h.outcome_set_of_takes (h.taken_append hx)]
  · rw [h.outcome_push_of_refused hx, h.outcome_set_of_refused h.taken hx []]

/-- A push that succeeds makes the field one element longer. -/
theorem get_of_outcome_push (h : n.Holds field f i items) {x : Value} {n' : Node}
    (hpush : (InPlace.push field x).outcome n = (.ok (), n')) :
    n'.get field = .ok (.many (items ++ [x])) := by
  by_cases hx : f.Takes n.home x
  · rw [h.outcome_push_of_takes hx] at hpush
    obtain rfl : n.putSlot i (.many (items ++ [x])) = n' := congrArg Prod.snd hpush
    exact (h.put (h.taken_append hx)).get
  · rw [h.outcome_push_of_refused hx] at hpush
    simp at hpush

/-! ### Calls in a row -/

/-- Elements that the field takes are appended one after the other. -/
theorem outcome_forM_push_of_takes (h : n.Holds field f i items) {xs : List Value}
    (hxs : ∀ v ∈ xs, f.Takes n.home v) :
    (xs.forM (InPlace.push field)).outcome n = (.ok (), n.putSlot i (.many (items ++ xs))) := by
  induction xs generalizing n items with
  | nil =>
      rw [List.append_nil, putSlot_self h.slot]
      exact InPlace.outcome_pure () n
  | cons x xs ih =>
      obtain ⟨hx, hrest⟩ := List.forall_mem_cons.1 hxs
      -- the node after the first push holds one element more, and the rest is pushed into that one
      have hnext := h.put (h.taken_append hx)
      show (InPlace.push field x >>= fun _ => xs.forM (InPlace.push field)).outcome n = _
      rw [InPlace.outcome_bind_of_ok (h.outcome_push_of_takes hx), ih hnext hrest,
        putSlot_putSlot, List.append_assoc, List.singleton_append]

theorem outcome_refill_of_takes (h : n.Holds field f i items) {xs : List Value}
    (hxs : ∀ v ∈ xs, f.Takes n.home v) :
    (InPlace.refill field xs).outcome n = (.ok (), n.putSlot i (.many xs)) := by
  have hempty : (n.putSlot i (.many [])).Holds field f i [] := h.put (by simp)
  rw [InPlace.refill, InPlace.outcome_bind_of_ok h.outcome_clear,
    hempty.outcome_forM_push_of_takes hxs, putSlot_putSlot, List.nil_append]

/-- An element that the field refuses ends the calls.  The elements before it stay. -/
theorem outcome_refill_of_refused (h : n.Holds field f i items) {before : List Value}
    (hbefore : ∀ v ∈ before, f.Takes n.home v) {x : Value} (hx : ¬ f.Takes n.home x)
    (rest : List Value) :
    (InPlace.refill field (before ++ x :: rest)).outcome n
      = (.error (n.refusal f x (.elementNotAdmitted before.length f.typeNames)),
          n.putSlot i (.many before)) := by
  have hsplit : InPlace.refill (m := Id) field (before ++ x :: rest)
      = InPlace.refill field before >>= fun _ =>
          InPlace.push field x >>= fun _ => rest.forM (InPlace.push field) := by
    simp only [InPlace.refill, bind_assoc]
    exact bind_congr fun _ => List.forM_append
  rw [hsplit, InPlace.outcome_bind_of_ok (h.outcome_refill_of_takes hbefore),
    InPlace.outcome_bind_of_error ((h.put hbefore).outcome_push_of_refused hx)]
  rfl

/-- **A list is taken at once exactly if its elements are taken one by one** by the emptied field, and the
node is the same then. -/
theorem outcome_set_eq_ok_iff (h : n.Holds field f i items) (xs : List Value) (n' : Node) :
    (InPlace.set field (.seq xs)).outcome n = (.ok (), n') ↔
      (InPlace.refill field xs).outcome n = (.ok (), n') := by
  rcases f.takes_all_or_first_refused n.home xs with hxs | ⟨before, x, rest, rfl, hbefore, hx⟩
  · rw [h.outcome_set_of_takes hxs, h.outcome_refill_of_takes hxs]
  · rw [h.outcome_set_of_refused hbefore hx rest, h.outcome_refill_of_refused hbefore hx rest]
    simp

/-- **A list refused at once is refused for the first element that is refused in its turn**, with the same
words.  Nothing is written, while the elements pushed before that one stay. -/
theorem outcome_set_eq_error (h : n.Holds field f i items) {xs : List Value} {e : TreeError}
    {n' : Node} (hset : (InPlace.set field (.seq xs)).outcome n = (.error e, n')) :
    n' = n ∧ ∃ before x rest m, xs = before ++ x :: rest ∧
      (InPlace.refill field before).outcome n = (.ok (), m) ∧
      (InPlace.push field x).outcome m = (.error e, m) ∧
      (InPlace.refill field xs).outcome n = (.error e, m) := by
  rcases f.takes_all_or_first_refused n.home xs with hxs | ⟨before, x, rest, rfl, hbefore, hx⟩
  · rw [h.outcome_set_of_takes hxs] at hset
    simp at hset
  · rw [h.outcome_set_of_refused hbefore hx rest] at hset
    obtain ⟨rfl, rfl⟩ : _ = e ∧ n = n' := by simpa using hset
    refine ⟨rfl, before, x, rest, n.putSlot i (.many before), rfl, ?_, ?_, ?_⟩
    · exact h.outcome_refill_of_takes hbefore
    · exact (h.put hbefore).outcome_push_of_refused hx
    · exact h.outcome_refill_of_refused hbefore hx rest

end Node.Holds

/-! ## Nodes that a run can show -/

/-- **At once or element by element, a sequence field is written alike.**  A list is accepted exactly if
its elements are accepted one by one by the emptied field, and then the nodes are the same; if it is
refused, then with the error of the first push that fails, and the node is as it was.  One push is the
field set to what it holds with that element at its end. -/
theorem Node.Reachable.sequence_written_alike {n : Node} (h : n.Reachable) {field : String}
    {f : FieldSpec} {i : Nat} (hl : n.locate field = .ok (f, i))
    (hm : f.multiplicity = .zeroOrMore ∨ f.multiplicity = .oneOrMore) :
    (∀ xs : List Value,
      (∀ n', (InPlace.set field (.seq xs)).outcome n = (.ok (), n') ↔
          (InPlace.refill field xs).outcome n = (.ok (), n')) ∧
        ∀ e n', (InPlace.set field (.seq xs)).outcome n = (.error e, n') →
          n' = n ∧ ∃ before x rest m, xs = before ++ x :: rest ∧
            (InPlace.refill field before).outcome n = (.ok (), m) ∧
            (InPlace.push field x).outcome m = (.error e, m) ∧
            (InPlace.refill field xs).outcome n = (.error e, m)) ∧
      ∃ items, n.get field = .ok (.many items) ∧ ∀ x,
        (InPlace.push field x).outcome n
            = (InPlace.set field (.seq (items ++ [x]))).outcome n ∧
          ∀ n', (InPlace.push field x).outcome n = (.ok (), n') →
            n'.get field = .ok (.many (items ++ [x])) := by
  have hsequence : f.multiplicity.isSequence = true := by
    rcases hm with hm | hm <;> rw [hm] <;> rfl
  obtain ⟨items, hholds⟩ := h.deeplySound.sound.exists_holds hl hsequence
  refine ⟨?_, items, hholds.get, ?_⟩
  · intro xs
    exact ⟨hholds.outcome_set_eq_ok_iff xs, fun _ _ hset => hholds.outcome_set_eq_error hset⟩
  · intro x
    exact ⟨hholds.outcome_push_eq_outcome_set x, fun _ hpush => hholds.get_of_outcome_push hpush⟩

/-- The link in the middle of a made one takes no text among its links, in whichever way it comes. -/
theorem sequence_written_alike_middle :
    Scene.Link.middle.Reachable ∧
      Scene.Link.middle.locate "rest"
        = .ok (⟨"rest", [.node "link"], .zeroOrMore, none⟩, 1) ∧
      (InPlace.push "rest" (.text "x")).outcome Scene.Link.middle
        = (InPlace.set "rest"
            (.seq [.node Scene.Link.named, .node Scene.Link.plain, .text "x"])).outcome
          Scene.Link.middle ∧
      ∃ e m, (InPlace.set "rest" (.seq [.node Scene.Link.plain, .text "x"])).outcome
            Scene.Link.middle
          = (.error e, Scene.Link.middle) ∧
        (InPlace.refill "rest" [.node Scene.Link.plain, .text "x"]).outcome Scene.Link.middle
          = (.error e, m) := by
  have hreachable : Scene.Link.middle.Reachable :=
    ⟨Scene.Link.made, Scene.Link.reached_made, .of_name "middle" rfl⟩
  have hlocated : Scene.Link.middle.locate "rest"
      = .ok (⟨"rest", [.node "link"], .zeroOrMore, none⟩, 1) := rfl
  obtain ⟨hlists, items, hget, hpush⟩ :=
    hreachable.sequence_written_alike hlocated (Or.inl rfl)
  have hheld : Scene.Link.middle.get "rest"
      = .ok (.many [.node Scene.Link.named, .node Scene.Link.plain]) := rfl
  obtain rfl : [.node Scene.Link.named, .node Scene.Link.plain] = items := by
    simpa using hheld.symm.trans hget
  have hrefused : (InPlace.set "rest" (.seq [.node Scene.Link.plain, .text "x"])).outcome
        Scene.Link.middle
      = (.error _, Scene.Link.middle) := rfl
  obtain ⟨-, -, -, -, m, -, -, -, hrefill⟩ := (hlists _).2 _ _ hrefused
  exact ⟨hreachable, hlocated, (hpush (.text "x")).1, _, m, hrefused, hrefill⟩

end TreeSchema
