/-
# TreeSchema.Proofs.Node.Commuting — calls on different fields do not see each other.

A call on a field of a node asks for the schema, the registry and what that one field holds, and it
changes nothing else.  So a slot written elsewhere is neither seen nor lost: the call answers the same, and
the other slot stays on top of whatever the call leaves.  From this two calls on different fields may
change places, and a whole run may be reordered as long as the calls on each field keep their order: a
call is brought forward past the calls on other fields, one after the other.

Edits of a child are functions here.  The same child gets the same answer and is left the same; an edit
that remembers what it saw in another field would break the law, and does so in no way that the node can
prevent.
-/
import TreeSchema.Proofs.Node.History

namespace TreeSchema

/-! ## Calls on one field -/

/-- A call that may change one field of a node. -/
inductive FieldCall : Type 1
  | write (w : Write)
  /-- The edit of a child.  What it answers and leaves depends on the child alone. -/
  | edit (α : Type) (field : String) (edit : StateT Node Id α)

namespace FieldCall

/-- The field that a call is about. -/
def field : FieldCall → String
  | write w => w.field
  | edit _ field _ => field

/-- What a call answers if it is accepted: nothing, or what the edit answers if there is a child. -/
abbrev Answer : FieldCall → Type
  | write _ => Unit
  | edit α _ _ => Option α

/-- Makes a call in place: its answer, and the node it leaves. -/
def run : (c : FieldCall) → Node → Except TreeError c.Answer × Node
  | write w, n => Id.run (w.inPlace.run.run n)
  | edit _ field change, n => Id.run ((InPlace.editChild field change).run.run n)

/-- The calls on one field, in the order of the whole list. -/
def ofField (field : String) (calls : List FieldCall) : List FieldCall :=
  calls.filter fun c => c.field = field

end FieldCall

/-- A call with what it answered. -/
abbrev FieldCall.Answered := Σ c : FieldCall, Except TreeError c.Answer

namespace Node

/-- The node after calls in order, each accepted or refused. -/
def afterCalls (n : Node) (calls : List FieldCall) : Node := calls.foldl (fun n c => (c.run n).2) n

/-- Calls in order with what they answer. -/
def answersTo (n : Node) : List FieldCall → List FieldCall.Answered
  | [] => []
  | c :: calls => ⟨c, (c.run n).1⟩ :: answersTo (c.run n).2 calls

end Node

/-! ## A slot written elsewhere -/

namespace Node

variable {n : Node} {i j : Nat} {s t : Slot}

/-- Slots at two places are replaced in either order. -/
theorem putSlot_comm (h : i ≠ j) (n : Node) (s t : Slot) :
    (n.putSlot i s).putSlot j t = (n.putSlot j t).putSlot i s := by
  simp only [putSlot, home, schema, slots, List.set_comm s t h]

/-- What a field makes of a value does not depend on what the node holds. -/
theorem accept_putSlot (n : Node) (j : Nat) (t : Slot) (f : FieldSpec) (v : Value) :
    (n.putSlot j t).accept f v = n.accept f v := rfl

theorem elementsAt_putSlot_of_ne (h : j ≠ i) : (n.putSlot j t).elementsAt i = n.elementsAt i := by
  rw [elementsAt, elementsAt, slotAt_putSlot_of_ne h]

end Node

/-- A write does not see a slot that was written elsewhere, and leaves it where it is. -/
theorem Write.run_putSlot {w : Write} {n : Node} {j : Nat} {t : Slot}
    (h : ∀ p, n.locate w.field = .ok p → p.2 ≠ j) :
    w.run (n.putSlot j t) = (w.run n).map fun n' => n'.putSlot j t := by
  cases w with
  | set field v =>
      simp only [run, Node.set, Node.locate_putSlot]
      cases hl : n.locate field with
      | error e => rfl
      | ok p =>
          simp only [Node.write, Node.accept_putSlot]
          cases n.accept p.1 v with
          | error e => rfl
          | ok s => exact congrArg Except.ok (Node.putSlot_comm (h p hl).symm n t s)
  | push field v =>
      simp only [run, Node.push, Node.locate_putSlot]
      cases hl : n.locate field with
      | error e => rfl
      | ok p =>
          simp only [Node.elementsAt_putSlot_of_ne (h p hl).symm,
            Node.slotAt_putSlot_of_ne (h p hl).symm, Node.home_putSlot]
          cases p.1.multiplicity.isSequence with
          | false => rfl
          | true =>
              cases Node.takesElement n.home p.1 v with
              | false => rfl
              | true => exact congrArg Except.ok (Node.putSlot_comm (h p hl).symm n t _)
  | clear field =>
      simp only [run, Node.clear, Node.locate_putSlot]
      cases hl : n.locate field with
      | error e => rfl
      | ok p => exact congrArg Except.ok (Node.putSlot_comm (h p hl).symm n t _)

/-- Nor does the edit of a child. -/
theorem Node.editChild_putSlot {α : Type} {n : Node} {field : String} {j : Nat} {t : Slot}
    (h : ∀ p, n.locate field = .ok p → p.2 ≠ j) (edit : Node → α × Node) :
    (n.putSlot j t).editChild field edit
      = (n.editChild field edit).map fun r => (r.1, r.2.putSlot j t) := by
  simp only [editChild, locate_putSlot]
  cases hl : n.locate field with
  | error e => rfl
  | ok p =>
      simp only [slotAt_putSlot_of_ne (h p hl).symm]
      split
      · next child _ =>
          have hhome : (n.putSlot j t).home = n.home := rfl
          by_cases ha : p.1.admits n.home (.node (edit child).2) = true
          · rw [if_pos (hhome ▸ ha), if_pos ha]
            exact congrArg (fun n' => Except.ok (some (edit child).1, n'))
              (putSlot_comm (h p hl).symm n t _)
          · rw [if_neg (hhome ▸ ha), if_neg ha]
            rfl
      · rfl

namespace FieldCall

variable {n : Node}

theorem run_write (w : Write) (n : Node) :
    (write w).run n = ((w.run n).map fun _ => (), w.after n) := by
  change Id.run (w.inPlace.run.run n) = _
  rw [Write.run_inPlace]
  rfl

theorem run_edit {α : Type} (field : String) (edit : StateT Node Id α) (n : Node) :
    (FieldCall.edit α field edit).run n
      = ((n.editChild field edit).map Prod.fst, n.afterEdit field edit) :=
  InPlace.run_editChild_eq n field edit

/-- **A call does not see what was written elsewhere**: it answers the same, and the slot that was written
lies over the node it leaves. -/
theorem run_putSlot {c : FieldCall} {j : Nat} {t : Slot}
    (h : ∀ p, n.locate c.field = .ok p → p.2 ≠ j) :
    c.run (n.putSlot j t) = ((c.run n).1, (c.run n).2.putSlot j t) := by
  cases c with
  | write w =>
      rw [run_write, run_write, Write.after, Write.after, Write.run_putSlot h]
      cases w.run n <;> rfl
  | edit α field edit =>
      have hedit : (n.putSlot j t).editChild field edit
          = (n.editChild field edit).map fun r => (r.1, r.2.putSlot j t) :=
        Node.editChild_putSlot h edit
      rw [run_edit, run_edit, Node.afterEdit, Node.afterEdit, hedit]
      cases n.editChild field edit <;> rfl

/-- A call leaves the node it found, or that node with another slot in its own field. -/
theorem exists_putSlot (c : FieldCall) (n : Node) :
    (c.run n).2 = n ∨ ∃ p s, n.locate c.field = .ok p ∧ (c.run n).2 = n.putSlot p.2 s := by
  cases c with
  | write w =>
      rw [run_write, Write.after]
      cases hw : w.run n with
      | error e => exact Or.inl rfl
      | ok n' =>
          obtain ⟨f, i, s, hl, rfl, -⟩ := Write.exists_putSlot hw
          exact Or.inr ⟨(f, i), s, hl, rfl⟩
  | edit α field edit =>
      rw [run_edit, Node.afterEdit]
      cases he : n.editChild field edit with
      | error e => exact Or.inl rfl
      | ok r =>
          obtain ⟨answer, n'⟩ := r
          obtain ⟨f, i, hl, ⟨child, -, -, -, rfl⟩ | ⟨-, -, rfl⟩⟩ := Node.editChild_eq_ok_iff.1 he
          · exact Or.inr ⟨(f, i), _, hl, rfl⟩
          · exact Or.inl rfl

/-! ## Two calls -/

/-- After a call on another field a call answers what it would have answered before it. -/
theorem answer_after {a b : FieldCall} (h : a.field ≠ b.field) (n : Node) :
    (a.run (b.run n).2).1 = (a.run n).1 := by
  rcases exists_putSlot b n with hsame | ⟨p, s, hp, hput⟩
  · rw [hsame]
  · rw [hput, run_putSlot fun q hq => Node.place_ne_of_field_ne hq hp h]

/-- Two calls on different fields leave one node, whichever comes first. -/
theorem node_after_comm {a b : FieldCall} (h : a.field ≠ b.field) (n : Node) :
    (b.run (a.run n).2).2 = (a.run (b.run n).2).2 := by
  rcases exists_putSlot a n with ha | ⟨p, s, hp, ha⟩ <;>
    rcases exists_putSlot b n with hb | ⟨q, t, hq, hb⟩
  · rw [ha, hb, ha]
  · -- `a` changes nothing, here nor under the slot that `b` writes
    rw [ha, hb, run_putSlot fun p hp => Node.place_ne_of_field_ne hp hq h, ha]
  · rw [hb, ha, run_putSlot fun q hq => Node.place_ne_of_field_ne hq hp h.symm, hb]
  · rw [ha, run_putSlot fun q hq => Node.place_ne_of_field_ne hq hp h.symm, hb,
      run_putSlot fun p hp => Node.place_ne_of_field_ne hp hq h, ha]
    exact Node.putSlot_comm (Node.place_ne_of_field_ne hq hp h.symm) n t s

/-! ## Runs -/

/-- The answers of the calls on one field. -/
def answersOf (field : String) (answered : List Answered) : List Answered :=
  answered.filter fun r => r.1.field = field

/-- **A call may be brought forward past calls on other fields**: the run leaves the same node, and each
field sees its calls answered the same. -/
theorem bring_forward {c : FieldCall} {before : List FieldCall}
    (h : ∀ b ∈ before, b.field ≠ c.field) (n : Node) (rest : List FieldCall) :
    n.afterCalls (before ++ c :: rest) = n.afterCalls (c :: (before ++ rest)) ∧
      ∀ field, answersOf field (n.answersTo (before ++ c :: rest))
        = answersOf field (n.answersTo (c :: (before ++ rest))) := by
  induction before generalizing n with
  | nil => exact ⟨rfl, fun _ => rfl⟩
  | cons b before ih =>
      obtain ⟨hb, hbefore⟩ := List.forall_mem_cons.1 h
      obtain ⟨hnode, hanswers⟩ := ih hbefore (b.run n).2
      have hswap : (c.run (b.run n).2).2 = (b.run (c.run n).2).2 := node_after_comm hb n
      constructor
      · calc n.afterCalls (b :: before ++ c :: rest)
            = (b.run n).2.afterCalls (c :: (before ++ rest)) := hnode
          _ = (c.run (b.run n).2).2.afterCalls (before ++ rest) := rfl
          _ = (b.run (c.run n).2).2.afterCalls (before ++ rest) := by rw [hswap]
      · intro field
        have hrest : answersOf field (n.answersTo (b :: before ++ c :: rest))
            = answersOf field [⟨b, (b.run n).1⟩]
              ++ answersOf field ((b.run n).2.answersTo (c :: (before ++ rest))) := by
          rw [← hanswers field, answersOf, answersOf, answersOf, ← List.filter_append]
          rfl
        -- the two calls in front keep their answers, and no field has both of them
        have hfront : ∀ (x y : Answered) (later : List Answered), x.1.field ≠ y.1.field →
            answersOf field [x] ++ answersOf field (y :: later)
              = answersOf field (y :: x :: later) := by
          intro x y later hne
          by_cases hx : x.1.field = field
          · have hy : y.1.field ≠ field := fun hy => hne (hx.trans hy.symm)
            simp [answersOf, hx, hy]
          · simp [answersOf, List.filter_cons, hx]
        rw [hrest, Node.answersTo, hfront _ _ _ hb, answer_after hb.symm, hswap, ← answer_after hb]
        rfl

theorem ofField_cons_self (c : FieldCall) (calls : List FieldCall) :
    ofField c.field (c :: calls) = c :: ofField c.field calls := by
  simp [ofField]

theorem ofField_append (field : String) (calls later : List FieldCall) :
    ofField field (calls ++ later) = ofField field calls ++ ofField field later :=
  List.filter_append _ _

/-- The first call of a run comes, in a run with the same calls on each field, after calls on other fields
only. -/
theorem exists_split_of_ofField {c : FieldCall} {calls calls' : List FieldCall}
    (h : ∀ field, ofField field (c :: calls) = ofField field calls') :
    ∃ before rest, calls' = before ++ c :: rest ∧ (∀ b ∈ before, b.field ≠ c.field) ∧
      ∀ field, ofField field calls = ofField field (before ++ rest) := by
  have hc := (h c.field).symm
  rw [ofField_cons_self] at hc
  obtain ⟨before, rest, rfl, hbefore, -, -⟩ := List.filter_eq_cons_iff.1 hc
  have hother : ∀ b ∈ before, b.field ≠ c.field := by simpa using hbefore
  refine ⟨before, rest, rfl, hother, ?_⟩
  intro field
  have hfield := h field
  rw [ofField_append] at hfield ⊢
  by_cases hown : c.field = field
  · subst hown
    have hnone : ofField c.field before = [] := by simpa [ofField] using hother
    rw [ofField_cons_self, hnone, List.nil_append, ofField_cons_self] at hfield
    rw [hnone, List.nil_append]
    exact List.tail_eq_of_cons_eq hfield
  · simpa [ofField, hown] using hfield

/-- A run without calls on any field is empty. -/
theorem eq_nil_of_ofField {calls : List FieldCall} (h : ∀ field, ofField field calls = []) :
    calls = [] := by
  cases calls with
  | nil => rfl
  | cons c calls =>
      have hc := h c.field
      rw [ofField_cons_self] at hc
      exact absurd hc (List.cons_ne_nil _ _)

/-- Runs with the same calls on each field are reorderings of each other. -/
theorem perm_of_ofField {calls calls' : List FieldCall}
    (h : ∀ field, ofField field calls = ofField field calls') : calls.Perm calls' := by
  induction calls generalizing calls' with
  | nil =>
      rw [eq_nil_of_ofField fun field => (h field).symm]
  | cons c calls ih =>
      obtain ⟨before, rest, rfl, -, hrest⟩ := exists_split_of_ofField h
      exact ((ih hrest).cons c).trans List.perm_middle.symm

/-- Only the order of the calls on each field matters to a run. -/
theorem run_eq_of_ofField {calls calls' : List FieldCall}
    (h : ∀ field, ofField field calls = ofField field calls') (n : Node) :
    n.afterCalls calls = n.afterCalls calls' ∧
      ∀ field, answersOf field (n.answersTo calls) = answersOf field (n.answersTo calls') := by
  induction calls generalizing calls' n with
  | nil =>
      obtain rfl := eq_nil_of_ofField fun field => (h field).symm
      exact ⟨rfl, fun _ => rfl⟩
  | cons c calls ih =>
      obtain ⟨before, rest, rfl, hother, hrest⟩ := exists_split_of_ofField h
      obtain ⟨hnode, hanswers⟩ := ih hrest (c.run n).2
      obtain ⟨hforward, hforwards⟩ := bring_forward hother n rest
      constructor
      · rw [hforward]
        exact hnode
      · intro field
        rw [hforwards field, Node.answersTo, Node.answersTo, answersOf, answersOf, List.filter_cons,
          List.filter_cons]
        simp only [answersOf] at hanswers
        rw [hanswers field]

/-- **Calls on different fields commute.**  Of two of them each is answered as if the other had not been
made, be they accepted or refused, on a field that there is or not, and they leave one node in either
order.  So of a run on a node only the order of the calls on each field matters: another run with the same
calls, in the same order on each field, answers each of them the same and leaves the same node. -/
theorem commute_across_fields (n : Node) :
    (∀ a b : FieldCall, a.field ≠ b.field →
      (a.run (b.run n).2).1 = (a.run n).1 ∧ (b.run (a.run n).2).1 = (b.run n).1 ∧
        (b.run (a.run n).2).2 = (a.run (b.run n).2).2) ∧
    ∀ calls calls' : List FieldCall, (∀ field, ofField field calls = ofField field calls') →
      calls.Perm calls' ∧ n.afterCalls calls = n.afterCalls calls' ∧
        ∀ field, answersOf field (n.answersTo calls) = answersOf field (n.answersTo calls') := by
  constructor
  · intro a b hfield
    exact ⟨answer_after hfield n, answer_after hfield.symm n, node_after_comm hfield n⟩
  · intro calls calls' h
    obtain ⟨hnode, hanswers⟩ := run_eq_of_ofField h n
    exact ⟨perm_of_ofField h, hnode, hanswers⟩

/-! ### Two orders of calls on a link

The link holds another link, which one call edits; a text is refused as one of the links that follow, and
the names are cleared and given anew. -/

/-- Takes away the links that follow a link, and answers with its kind. -/
def shorten : StateT Node Id String := modifyGet fun n => (n.kind, (Write.clear "rest").after n)

/-- The edit comes first. -/
def editFirst : List FieldCall :=
  [.edit String "next" shorten, .write (.push "rest" (.text "y")), .write (.clear "names"),
    .write (.push "names" (.text "y"))]

/-- The edit comes last, and the refused call between those on the names. -/
def editLast : List FieldCall :=
  [.write (.clear "names"), .write (.push "rest" (.text "y")), .write (.push "names" (.text "y")),
    .edit String "next" shorten]

theorem ofField_editFirst (field : String) : ofField field editFirst = ofField field editLast := by
  by_cases hnext : field = "next"
  · subst hnext; rfl
  by_cases hrest : field = "rest"
  · subst hrest; rfl
  simp [ofField, editFirst, editLast, FieldCall.field, Write.field, List.filter_cons, Ne.symm hnext,
    Ne.symm hrest]

theorem commute_across_fields_outer :
    ((FieldCall.edit String "next" shorten).field ≠ (FieldCall.write (.clear "names")).field ∧
        ∀ field, ofField field editFirst = ofField field editLast) ∧
      (FieldCall.edit String "next" shorten).run ((FieldCall.write (.clear "names")).run
        Scene.Link.outer).2 = (.ok (some "link"), Scene.Link.outer.afterCalls
          [.edit String "next" shorten, .write (.clear "names")]) ∧
      Scene.Link.outer.afterCalls editFirst = Scene.Link.outer.afterCalls editLast := by
  obtain ⟨htwo, hruns⟩ := commute_across_fields Scene.Link.outer
  have hne : (FieldCall.edit String "next" shorten).field
      ≠ (FieldCall.write (.clear "names")).field := by decide
  obtain ⟨hanswer, -, hnode⟩ := htwo _ _ hne
  obtain ⟨-, hruns, -⟩ := hruns editFirst editLast ofField_editFirst
  exact ⟨⟨hne, ofField_editFirst⟩, Prod.ext hanswer hnode.symm, hruns⟩

end FieldCall

end TreeSchema
