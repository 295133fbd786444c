/-
# TreeSchema.Proofs.Node.History — what a node misses is written in its history.

Whether a node is finished is a question about its slots.  This file answers it from the calls alone.
A `Chronicle` runs calls on a node in place and writes down the writes that were accepted; a refused
write and the edit of a child leave no line in it.  Two readings of the lines about one field, neither of
which looks at the node, then tell whether the field is still owed a value: has it been set since it was
last cleared, and has it been given elements since it last started afresh.

The main result is that finishing the node reports exactly the fields that are owed.
-/
import TreeSchema.Proofs.Node.Atomicity

namespace TreeSchema

/-! ## Reading the accepted writes to one field

The writes stand newest first. -/

namespace Write

def isClear : Write → Bool
  | clear _ => true
  | _ => false

def isSet : Write → Bool
  | set _ _ => true
  | _ => false

def isPush : Write → Bool
  | push _ _ => true
  | _ => false

/-- After the write nothing is left of what the field held before. -/
def startsAfresh (w : Write) : Bool := w.isClear || w.isSet

/-- The write sets the field to a sequence that has elements. -/
def setsElements : Write → Bool
  | set _ (.seq items) => !items.isEmpty
  | _ => false

/-- The field was set, and not cleared since. -/
def setSinceCleared (ws : List Write) : Bool :=
  (ws.takeWhile fun w => !w.isClear).any isSet

/-- An element was pushed since the field last started afresh, or it started with elements. -/
def givenElements (ws : List Write) : Bool :=
  (ws.takeWhile fun w => !w.startsAfresh).any isPush || (ws.find? startsAfresh).any setsElements

end Write

/-- A field is owed a value, as far as the accepted writes to it tell. -/
def FieldSpec.isOwed (f : FieldSpec) (ws : List Write) : Bool :=
  match f.multiplicity with
  | .needed => !Write.setSinceCleared ws
  | .oneOrMore => !Write.givenElements ws
  | .optional | .zeroOrMore => false

/-- The writes to one field, in the order of the whole list. -/
def Write.ofField (field : String) (ws : List Write) : List Write :=
  ws.filter fun w => w.field = field

/-- The names of the fields that are owed a value, in the order of the schema. -/
def NodeSchema.owed (s : NodeSchema) (ws : List Write) : List String :=
  (s.fields.filter fun f => f.isOwed (Write.ofField f.name ws)).map FieldSpec.name

/-! ## Calls and their record -/

/-- A call that changes a node. -/
inductive Call (σ : Type) : Type 1
  | write (w : Write)
  /-- The edit of a child; it may do anything to the child and to the world beside it. -/
  | edit {α : Type} (field : String) (edit : StateT Node (StateM σ) α)

/-- A node that calls are made on, and the writes to it that were accepted. -/
structure Chronicle (σ : Type) where
  node : Node
  /-- Newest first. -/
  accepted : List Write
  world : σ

namespace Chronicle

variable {σ : Type}

/-- Nothing has been called yet. -/
def start (n : Node) (world : σ) : Chronicle σ := ⟨n, [], world⟩

/-- Makes one call.  Whatever the answer, the node goes on as the call leaves it. -/
def call (c : Chronicle σ) : Call σ → Chronicle σ
  | .write w =>
    match ((w.inPlace : InPlace (StateM σ) Unit).run.run c.node).run c.world with
    | ((.ok (), n), world) => ⟨n, w :: c.accepted, world⟩
    | ((.error _, n), world) => ⟨n, c.accepted, world⟩
  | .edit field edit =>
    let left := ((InPlace.editChild field edit).run.run c.node).run c.world
    ⟨left.1.2, c.accepted, left.2⟩

/-- Makes calls in order. -/
def after (c : Chronicle σ) (calls : List (Call σ)) : Chronicle σ := calls.foldl call c

/-- A refused write changes nothing, and an accepted one is written down. -/
theorem call_write (c : Chronicle σ) (w : Write) :
    c.call (.write w) =
      match w.run c.node with
      | .ok n => ⟨n, w :: c.accepted, c.world⟩
      | .error _ => c := by
  have hrun : ((w.inPlace : InPlace (StateM σ) Unit).run.run c.node).run c.world
      = (((w.run c.node).map fun _ => (), w.after c.node), c.world) := by
    rw [Write.run_inPlace]
    rfl
  simp only [call, hrun, Write.after]
  cases w.run c.node <;> rfl

/-- The edit of a child leaves the record as it was. -/
theorem accepted_call_edit {α : Type} (c : Chronicle σ) (field : String)
    (edit : StateT Node (StateM σ) α) : (c.call (.edit field edit)).accepted = c.accepted := rfl

theorem node_call_edit {α : Type} (c : Chronicle σ) (field : String)
    (edit : StateT Node (StateM σ) α) :
    (c.call (.edit field edit)).node
      = (((InPlace.editChild field edit).run.run c.node).run c.world).1.2 := rfl

end Chronicle

/-! ## One accepted write -/

/-- A slot suits a field unless the field is a sequence and the slot holds none. -/
def Slot.Suits (s : Slot) (f : FieldSpec) : Prop :=
  f.multiplicity.isSequence = true → ∃ items, s = .many items

theorem Slot.suits_defaultSlot (f : FieldSpec) : f.multiplicity.defaultSlot.Suits f :=
  fun hm => ⟨[], by rw [Multiplicity.defaultSlot, if_pos hm]⟩

/-- An accepted write puts a slot into its field.  If the slot before suits the field, so does this one,
and what the field is then owed follows from the write and the ones before it; where a sequence field holds
no sequence, an element that is pushed is lost. -/
theorem Write.exists_putSlot {w : Write} {n n' : Node} (h : w.run n = .ok n') :
    ∃ f i s, n.locate w.field = .ok (f, i) ∧ n' = n.putSlot i s ∧
      ((n.slotAt i).Suits f →
        s.Suits f ∧ ∀ ws, f.multiplicity.isSatisfiedBy s = !f.isOwed (w :: ws)) := by
  cases w with
  | set field v =>
      obtain ⟨⟨f, i⟩, hl, hw⟩ := Node.set_eq_ok_iff.1 h
      obtain ⟨s, ha, rfl⟩ := Node.write_eq_ok_iff.1 hw
      rcases Node.accept_eq_ok_iff.1 ha with ⟨hm, -, rfl⟩ | ⟨hm, items, rfl, -, rfl⟩ <;>
        refine ⟨f, i, _, hl, rfl, fun _ => ⟨by simp [Slot.Suits, hm], fun ws => ?_⟩⟩ <;>
        cases hf : f.multiplicity <;>
          simp_all [Multiplicity.isSequence, Multiplicity.isSatisfiedBy, FieldSpec.isOwed,
            Slot.isSet, Slot.asMany?, setSinceCleared, givenElements, startsAfresh, isClear, isSet,
            setsElements]
  | push field v =>
      obtain ⟨f, i, hl, hm, -, rfl⟩ := Node.push_eq_ok_iff.1 h
      refine ⟨f, i, _, hl, rfl, fun hsuits => ?_⟩
      obtain ⟨items, hitems⟩ := hsuits hm
      rw [hitems, Slot.append]
      refine ⟨fun _ => ⟨_, rfl⟩, fun ws => ?_⟩
      cases hf : f.multiplicity <;>
        simp_all [Multiplicity.isSequence, Multiplicity.isSatisfiedBy, FieldSpec.isOwed,
          Slot.asMany?, givenElements, startsAfresh, isClear, isSet, isPush]
  | clear field =>
      obtain ⟨⟨f, i⟩, hl, rfl⟩ := Node.clear_eq_ok_iff.1 h
      refine ⟨f, i, _, hl, rfl, fun _ => ⟨Slot.suits_defaultSlot f, fun ws => ?_⟩⟩
      cases hf : f.multiplicity <;>
        simp [Multiplicity.isSequence, Multiplicity.defaultSlot, Multiplicity.isSatisfiedBy,
          FieldSpec.isOwed, Slot.isSet, Slot.asMany?, setSinceCleared, givenElements, startsAfresh,
          isClear, setsElements, hf]

/-! ## The record agrees with the slots -/

/-- Each field of a node has a slot that suits it, and the slot satisfies the field exactly when nothing is
owed to it. -/
structure Node.AgreesWith (n : Node) (ws : List Write) : Prop where
  names_nodup : n.schema.fieldNames.Nodup
  length_slots : n.slots.length = n.schema.fields.length
  suits : ∀ {i : Nat} {f : FieldSpec} {s : Slot}, n.schema.fields[i]? = some f →
    n.slots[i]? = some s → s.Suits f
  satisfied : ∀ {i : Nat} {f : FieldSpec} {s : Slot}, n.schema.fields[i]? = some f →
    n.slots[i]? = some s → f.multiplicity.isSatisfiedBy s = !f.isOwed (Write.ofField f.name ws)

namespace Node

variable {n : Node} {ws : List Write}

/-- To a fresh node every required field is owed. -/
theorem agreesWith_fresh (home : Sealed) {schema : NodeSchema} (h : schema.fieldNames.Nodup) :
    (fresh home schema).AgreesWith [] := by
  refine ⟨h, by simp [fresh, slots, Node.schema], ?_, ?_⟩
  · intro i f s hf hs
    rw [eq_defaultSlot_of_fresh hf hs]
    exact Slot.suits_defaultSlot f
  · intro i f s hf hs
    rw [eq_defaultSlot_of_fresh hf hs]
    cases hm : f.multiplicity <;>
      simp [Write.ofField, FieldSpec.isOwed, Multiplicity.isSatisfiedBy, Multiplicity.defaultSlot,
        Multiplicity.isSequence, Slot.isSet, Slot.asMany?, Write.setSinceCleared,
        Write.givenElements, hm]

namespace AgreesWith

theorem suits_slotAt (h : n.AgreesWith ws) {field : String} {f : FieldSpec} {i : Nat}
    (hl : n.locate field = .ok (f, i)) : (n.slotAt i).Suits f := by
  have hf : n.schema.fields[i]? = some f := getElem?_of_locate hl
  have hi : i < n.slots.length := by
    rw [h.length_slots]
    exact (List.getElem?_eq_some_iff.1 hf).1
  have hs : n.slots[i]? = some (n.slotAt i) := by
    rw [slotAt, List.getD_eq_getElem?_getD, List.getElem?_eq_getElem hi, Option.getD_some]
  exact h.suits hf hs

/-- A suitable slot in one field leaves all slots suitable. -/
theorem suits_putSlot (h : n.AgreesWith ws) {i : Nat} {f : FieldSpec} {s : Slot}
    (hf : n.schema.fields[i]? = some f) (hs : s.Suits f) {j : Nat} {g : FieldSpec} {t : Slot}
    (hg : (n.putSlot i s).schema.fields[j]? = some g) (ht : (n.putSlot i s).slots[j]? = some t) :
    t.Suits g := by
  rcases eq_or_getElem?_of_putSlot ht with ⟨rfl, rfl⟩ | ⟨-, ht⟩
  · obtain rfl : f = g := Option.some.inj (hf.symm.trans hg)
    exact hs
  · exact h.suits hg ht

/-- An accepted write and its line in the record go together. -/
theorem write (h : n.AgreesWith ws) {w : Write} {n' : Node} (hw : w.run n = .ok n') :
    n'.AgreesWith (w :: ws) := by
  obtain ⟨f, i, s, hl, rfl, hput⟩ := Write.exists_putSlot hw
  obtain ⟨hsuits, hs⟩ := hput (h.suits_slotAt hl)
  obtain ⟨hf, hname⟩ := NodeSchema.locate?_eq_some (locate_eq_ok_iff.1 hl)
  refine ⟨h.names_nodup, by simpa using h.length_slots, h.suits_putSlot hf hsuits, ?_⟩
  intro j g t hg ht
  rw [schema_putSlot] at hg
  rcases eq_or_getElem?_of_putSlot ht with ⟨rfl, rfl⟩ | ⟨hij, ht⟩
  · -- the field written to: the line is its newest
    obtain rfl : f = g := Option.some.inj (hf.symm.trans hg)
    have hline : Write.ofField f.name (w :: ws) = w :: Write.ofField f.name ws := by
      simp [Write.ofField, ← hname]
    rw [hline]
    exact hs _
  · -- another field: neither its slot nor its lines have changed
    have hother : w.field ≠ g.name := fun hsame =>
      hij (NodeSchema.place_eq_of_name h.names_nodup hf hg (hname.trans hsame))
    have hlines : Write.ofField g.name (w :: ws) = Write.ofField g.name ws := by
      simp [Write.ofField, hother]
    rw [hlines]
    exact h.satisfied hg ht

/-- A node put where a node was changes nothing that the record tells. -/
theorem putNode (h : n.AgreesWith ws) {i : Nat} {child child' : Node}
    (hs : n.slotAt i = .single (.node child)) :
    (n.putSlot i (.single (.node child'))).AgreesWith ws := by
  have hslot := getElem?_of_slotAt hs Slot.noConfusion
  have hlt : i < n.slots.length := (List.getElem?_eq_some_iff.1 hslot).1
  obtain ⟨f, hf⟩ : ∃ f, n.schema.fields[i]? = some f :=
    ⟨_, List.getElem?_eq_getElem (h.length_slots ▸ hlt)⟩
  -- the field holds a node, so it is none of the sequence fields
  have hsuits : (Slot.single (.node child')).Suits f := by
    intro hm
    obtain ⟨items, hitems⟩ := h.suits hf hslot hm
    cases hitems
  refine ⟨h.names_nodup, by simpa using h.length_slots, h.suits_putSlot hf hsuits, ?_⟩
  intro j g t hg ht
  rw [schema_putSlot] at hg
  rcases eq_or_getElem?_of_putSlot ht with ⟨rfl, rfl⟩ | ⟨-, ht⟩
  · rw [← h.satisfied hg hslot]
    cases g.multiplicity <;> rfl
  · exact h.satisfied hg ht

/-- The fields that the node misses are those that the record says it is owed. -/
theorem missing_eq (h : n.AgreesWith ws) : n.missing = n.schema.owed ws := by
  have hrow : n.fields.map Prod.fst = n.schema.fields :=
    List.map_fst_zip (Nat.le_of_eq h.length_slots.symm)
  have hjudge : ∀ p ∈ n.fields,
      (!p.1.multiplicity.isSatisfiedBy p.2) = p.1.isOwed (Write.ofField p.1.name ws) := by
    rintro ⟨f, s⟩ hp
    obtain ⟨i, hf, hs⟩ := mem_fields_iff.1 hp
    rw [h.satisfied hf hs, Bool.not_not]
  calc n.missing
      = (n.fields.filter fun p => p.1.isOwed (Write.ofField p.1.name ws)).map
          fun p => p.1.name := by rw [missing, List.filter_congr hjudge]
    _ = ((n.fields.map Prod.fst).filter fun f => f.isOwed (Write.ofField f.name ws)).map
          FieldSpec.name := by
        rw [List.filter_map, List.map_map]
        rfl
    _ = n.schema.owed ws := by rw [hrow, NodeSchema.owed]

end AgreesWith

end Node

namespace Chronicle

variable {σ : Type} {c : Chronicle σ}

/-- **One call keeps node and record in agreement**, be it accepted or refused, and the schema stays. -/
theorem agreesWith_call (h : c.node.AgreesWith c.accepted) (k : Call σ) :
    (c.call k).node.AgreesWith (c.call k).accepted ∧ (c.call k).node.schema = c.node.schema := by
  cases k with
  | write w =>
      rw [call_write]
      cases hw : w.run c.node with
      | error e => exact ⟨h, rfl⟩
      | ok n => exact ⟨h.write hw, (Write.sameBut_of_run hw).schema⟩
  | edit field edit =>
      rw [accepted_call_edit, node_call_edit]
      rcases InPlace.node_of_editChild c.node field edit c.world with
        hsame | ⟨i, child, child', hs, hput⟩
      · rw [hsame]
        exact ⟨h, rfl⟩
      · rw [hput]
        exact ⟨h.putNode hs, rfl⟩

/-- A whole run of calls keeps them in agreement. -/
theorem agreesWith_after (h : c.node.AgreesWith c.accepted) (calls : List (Call σ)) :
    (c.after calls).node.AgreesWith (c.after calls).accepted ∧
      (c.after calls).node.schema = c.node.schema := by
  induction calls generalizing c with
  | nil => exact ⟨h, rfl⟩
  | cons k calls ih =>
      obtain ⟨hcall, hschema⟩ := agreesWith_call h k
      obtain ⟨hrest, hsame⟩ := ih hcall
      exact ⟨hrest, hsame.trans hschema⟩

/-- **What a node misses is decided by the history of its writes.**  After any calls on a fresh node,
finishing it names the fields that the accepted writes leave owed, once each and in the order of the
schema, and succeeds if there is none. -/
theorem finalize_after {home : Sealed} (hgrown : home.registry.Grown) {kind : String} {n : Node}
    (hn : home.node kind = .ok n) (world : σ) (calls : List (Call σ)) :
    let c := (start n world).after calls
    let owed := n.schema.owed c.accepted
    home.registry.get? kind = some n.schema ∧ owed.Nodup ∧ owed.Sublist n.schema.fieldNames ∧
      c.node.finalize = if owed = [] then .ok () else .error (.incomplete kind owed) := by
  intro c owed
  obtain ⟨schema, hget, rfl⟩ := Sealed.node_eq_ok_iff.1 hn
  obtain ⟨hmem, hkind⟩ := hgrown.coherent.get?_eq_some_iff.1 hget
  have hnames : schema.fieldNames.Nodup := (hgrown.proper _ hmem).names_nodup
  obtain ⟨hagrees, hschema⟩ :=
    agreesWith_after (c := start (Node.fresh home schema) world)
      (Node.agreesWith_fresh home hnames) calls
  have howed : owed.Sublist schema.fieldNames := List.filter_sublist.map _
  have hmissing : c.node.missing = owed := by rw [hagrees.missing_eq, hschema]; rfl
  have hname : c.node.kind = kind := by rw [Node.kind, hschema]; exact hkind
  refine ⟨hget, howed.nodup hnames, howed, ?_⟩
  rw [← hmissing, ← hname]
  unfold Node.finalize
  cases c.node.missing <;> simp

/-! ### A history that takes elements away

Entries need a title and at least one tag, and may quote another entry.  A null title counts as set, and
an empty sequence takes the tags away again. -/

namespace Entry

/-- The kind of entries. -/
def schema : NodeSchema :=
  ⟨"entry", none, none,
    [⟨"title", [.text, .singleton], .needed, none⟩, ⟨"tags", [.identifier], .oneOrMore, none⟩,
      ⟨"quoted", [.node "entry"], .optional, none⟩]⟩

/-- The registry of entries alone. -/
def home : Sealed := ⟨0, Registry.empty.append schema, rfl⟩

/-- The third call is refused, and the fourth finds no child to edit. -/
def calls : List (Call Nat) :=
  [.write (.set "title" .null), .write (.push "tags" (.text "draft")),
    .write (.push "tags" (.int 3)), .edit "quoted" (modifyGet fun n => (n.kind, n)),
    .write (.set "tags" (.seq []))]

end Entry

theorem finalize_after_entry_calls :
    (Entry.home.registry.Grown ∧ Entry.home.node "entry" = .ok (.fresh Entry.home Entry.schema)) ∧
      ((start (.fresh Entry.home Entry.schema) 0).after Entry.calls).node.finalize
        = .error (.incomplete "entry" ["tags"]) := by
  have hgrown : Entry.home.registry.Grown := .register .empty (s := Entry.schema) rfl
  have hnode : Entry.home.node "entry" = .ok (.fresh Entry.home Entry.schema) := rfl
  exact ⟨⟨hgrown, hnode⟩, (finalize_after hgrown hnode 0 Entry.calls).2.2.2⟩

end Chronicle

end TreeSchema
