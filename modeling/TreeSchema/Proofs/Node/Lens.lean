/-
# TreeSchema.Proofs.Node.Lens — edits of children made one inside the other.

The edit of a child may itself be the edit of a child of that child, and so on down a path of fields.  Each
call on the way keeps a copy, lets the next one work, and judges what that one has left.  This file says what
the whole stack of calls comes to.  If the path leads to a sub-node and the last field takes what the
innermost edit makes of it, the tree has that node at the end of the path and is otherwise the tree it was.
If not, it is the tree it was altogether: the call that stops the descent gives its answer, the calls around
it take that answer for the answer of an edit that went well, and they accept their children because these
are of the registry and the schema they were of.

`Node.follow?` and `Node.graft` read and replace the node at the end of a path.  `Node.Replaced`
says level by level that nothing else has been.
-/
import TreeSchema.Proofs.Node.Kept

namespace TreeSchema

/-! ## Paths of fields -/

namespace Node

/-- The sub-node that a field holds by itself. -/
def child? (n : Node) (field : String) : Option Node :=
  match n.get field with
  | .ok (.single (.node child)) => some child
  | _ => none

/-- The sub-node at the end of a path of fields. -/
def follow? (n : Node) : List String → Option Node
  | [] => some n
  | field :: path => (n.child? field).bind fun child => child.follow? path

/-- The tree with another node at the end of a path.  Where the path leads nowhere nothing is replaced. -/
def graft (n : Node) : List String → Node → Node
  | [], m => m
  | field :: path, m =>
    match n.locate field, n.child? field with
    | .ok p, some child => n.putSlot p.2 (.single (.node (child.graft path m)))
    | _, _ => n

/-- The second tree is the first with another node at the end of a path.  Every node on the way belongs to
the registry it belonged to, follows the schema it followed, and holds what it held in all fields but the
one that the path goes through. -/
inductive Replaced : Node → List String → Node → Node → Prop
  | here (n m : Node) : Replaced n [] m m
  | field {n n' child child' m : Node} {field : String} {path : List String} :
      n.get field = .ok (.single (.node child)) → n'.get field = .ok (.single (.node child')) →
        n.SameBut field n' → Replaced child path m child' → Replaced n (field :: path) m n'

variable {n child k m : Node} {field : String} {f : FieldSpec} {i : Nat} {path rest : List String}

theorem child?_eq_some_iff :
    n.child? field = some child ↔ n.get field = .ok (.single (.node child)) := by
  unfold child?
  constructor
  · intro h
    split at h
    · next hget => rw [hget, Option.some.inj h]
    · simp at h
  · intro h
    rw [h]

/-- A sub-node stands in the slot of a field that the node has. -/
theorem child?_eq_some_iff_slotAt :
    n.child? field = some child ↔
      ∃ f i, n.locate field = .ok (f, i) ∧ n.slotAt i = .single (.node child) := by
  rw [child?_eq_some_iff, get_eq_ok_iff, Prod.exists]
  simp only [eq_comm]

theorem slotAt_of_child? (hl : n.locate field = .ok (f, i)) (h : n.child? field = some child) :
    n.slotAt i = .single (.node child) := by
  obtain ⟨p, hp, hs⟩ := get_eq_ok_iff.1 (child?_eq_some_iff.1 h)
  obtain rfl : (f, i) = p := Except.ok.inj (hl.symm.trans hp)
  exact hs.symm

theorem follow?_cons (h : n.child? field = some child) :
    n.follow? (field :: path) = child.follow? path := by
  rw [follow?, h, Option.bind_some]

/-- A path leads first through the slot of its first field. -/
theorem follow?_cons_eq_some_iff :
    n.follow? (field :: path) = some k ↔
      ∃ f i child, n.locate field = .ok (f, i) ∧ n.slotAt i = .single (.node child) ∧
        child.follow? path = some k := by
  rw [follow?, Option.bind_eq_some_iff]
  simp only [child?_eq_some_iff_slotAt]
  constructor
  · rintro ⟨child, ⟨f, i, hl, hs⟩, hpath⟩
    exact ⟨f, i, child, hl, hs, hpath⟩
  · rintro ⟨f, i, child, hl, hs, hpath⟩
    exact ⟨child, ⟨f, i, hl, hs⟩, hpath⟩

theorem follow?_append (h : n.follow? path = some k) (rest : List String) :
    n.follow? (path ++ rest) = k.follow? rest := by
  induction path generalizing n with
  | nil =>
      obtain rfl : n = k := Option.some.inj h
      rfl
  | cons field path ih =>
      obtain ⟨f, i, child, hl, hs, hpath⟩ := follow?_cons_eq_some_iff.1 h
      have hchild : n.child? field = some child := child?_eq_some_iff_slotAt.2 ⟨f, i, hl, hs⟩
      rw [List.cons_append, follow?_cons hchild, ih hpath]

theorem graft_cons (hl : n.locate field = .ok (f, i)) (hs : n.slotAt i = .single (.node child))
    (path : List String) (m : Node) :
    n.graft (field :: path) m = n.putSlot i (.single (.node (child.graft path m))) := by
  have hchild : n.child? field = some child := child?_eq_some_iff_slotAt.2 ⟨f, i, hl, hs⟩
  rw [graft, hl, hchild]

/-- A node grafted at the end of a path that has two parts is grafted into the sub-node between them. -/
theorem graft_append (h : n.follow? path = some k) (rest : List String) (m : Node) :
    n.graft (path ++ rest) m = n.graft path (k.graft rest m) := by
  induction path generalizing n with
  | nil =>
      obtain rfl : n = k := Option.some.inj h
      rfl
  | cons field path ih =>
      obtain ⟨f, i, child, hl, hs, hpath⟩ := follow?_cons_eq_some_iff.1 h
      rw [List.cons_append, graft_cons hl hs, graft_cons hl hs, ih hpath]

/-- The sub-node that stands at the end of a path may be put there. -/
theorem graft_self (h : n.follow? path = some k) : n.graft path k = n := by
  induction path generalizing n with
  | nil =>
      obtain rfl : n = k := Option.some.inj h
      rfl
  | cons field path ih =>
      obtain ⟨f, i, child, hl, hs, hpath⟩ := follow?_cons_eq_some_iff.1 h
      rw [graft_cons hl hs, ih hpath]
      exact putSlot_self (getElem?_of_slotAt hs Slot.noConfusion)

/-- Where a path leads to a sub-node, grafting replaces that one and nothing else. -/
theorem replaced_graft (h : n.follow? path = some k) (m : Node) :
    n.Replaced path m (n.graft path m) := by
  induction path generalizing n with
  | nil => exact .here n m
  | cons field path ih =>
      obtain ⟨f, i, child, hl, hs, hpath⟩ := follow?_cons_eq_some_iff.1 h
      have hslot := getElem?_of_slotAt hs Slot.noConfusion
      rw [graft_cons hl hs]
      have hget : n.get field = .ok (.single (.node child)) := get_eq_ok_iff.2 ⟨_, hl, hs.symm⟩
      exact .field hget (get_putSlot_self hl hslot) (.of_putSlot hl _) (ih hpath)

/-- A node put in the place of one of its registry and schema leaves the whole of its registry and schema. -/
theorem Akin.graft (hm : k.Akin m) (h : n.follow? path = some k) : n.Akin (n.graft path m) := by
  cases path with
  | nil =>
      obtain rfl : n = k := Option.some.inj h
      exact hm
  | cons field path =>
      obtain ⟨f, i, child, hl, hs, -⟩ := follow?_cons_eq_some_iff.1 h
      rw [graft_cons hl hs]
      exact n.akin_putSlot i _

/-- A path leads to a sub-node, or there is a first field on it that holds none. -/
theorem reaches_or_stops (n : Node) (hpath : path ≠ []) :
    (∃ before field k child, path = before ++ [field] ∧ n.follow? before = some k ∧
      k.child? field = some child) ∨
    ∃ before field after k, path = before ++ field :: after ∧ n.follow? before = some k ∧
      k.child? field = none := by
  induction path generalizing n with
  | nil => exact absurd rfl hpath
  | cons field path ih =>
      cases hchild : n.child? field with
      | none => exact Or.inr ⟨[], field, path, n, rfl, rfl, hchild⟩
      | some child =>
          by_cases hlast : path = []
          · subst hlast
            exact Or.inl ⟨[], field, n, child, rfl, rfl, hchild⟩
          · rcases ih child hlast with
              ⟨before, g, k, k', rfl, hk, hk'⟩ | ⟨before, g, after, k, rfl, hk, hnone⟩
            · exact Or.inl ⟨field :: before, g, k, k', rfl, by rw [follow?_cons hchild, hk], hk'⟩
            · exact Or.inr ⟨field :: before, g, after, k, rfl, by rw [follow?_cons hchild, hk], hnone⟩

end Node

/-! ## Edits along a path -/

/-- What edits along a path answer: each call answers for the calls inside it. -/
def NestedAnswer (α : Type) : List String → Type
  | [] => α
  | _ :: path => Except TreeError (Option (NestedAnswer α path))

/-- An answer within calls that went well. -/
def NestedAnswer.around {α : Type} {p : List String} :
    (before : List String) → NestedAnswer α p → NestedAnswer α (before ++ p)
  | [], answer => answer
  | _ :: before, answer => Except.ok (some (around before answer))

namespace InPlace

/-- Edits the sub-node at the end of a path, by the edit of a child within the edit of a child. -/
def editAlong {m : Type → Type} [Monad m] {α : Type} (edit : StateT Node m α) :
    (path : List String) → StateT Node m (NestedAnswer α path)
  | [] => edit
  | field :: path => (editChild field (editAlong edit path)).run

variable {σ α : Type} {edit : StateT Node (StateM σ) α} {n k k' : Node} {world world' : σ}
  {before after : List String}

/-- **Calls around an inner call that leaves a node of the same registry and schema all go well.** -/
theorem run_editAlong_around (hn : n.DeeplySound) (hk : n.follow? before = some k)
    {answer : NestedAnswer α after}
    (hrun : ((editAlong edit after).run k).run world = ((answer, k'), world'))
    (hakin : k.Akin k') :
    ((editAlong edit (before ++ after)).run n).run world
      = ((NestedAnswer.around before answer, n.graft before k'), world') := by
  -- on the calls outside, the outermost first
  induction before generalizing n with
  | nil =>
      obtain rfl : n = k := Option.some.inj hk
      exact hrun
  | cons field before ih =>
      obtain ⟨f, i, child, hl, hs, hbefore⟩ := Node.follow?_cons_eq_some_iff.1 hk
      have hget : n.get field = .ok (.single (.node child)) :=
        Node.get_eq_ok_iff.2 ⟨_, hl, hs.symm⟩
      have hsound : child.DeeplySound := hn.of_get hget (.node child) List.mem_cons_self
      have hinner := ih hsound hbefore
      rw [Node.graft_cons hl hs]
      -- the field has taken this child before, and takes it again as the inner calls leave it
      exact run_editChild_of_akin hn.sound hl hs hinner (hakin.graft hbefore)

/-- Where a field holds no sub-node, or there is no such field, nothing is done. -/
theorem run_editChild_of_child?_eq_none {field : String} (h : n.child? field = none)
    (edit : StateT Node (StateM σ) α) (world : σ) :
    ((editChild field edit).run.run n).run world
      = (((n.get field).map fun _ => none, n), world) := by
  cases hl : n.locate field with
  | error e =>
      rw [run_editChild_of_error hl, Node.get, hl]
      rfl
  | ok p =>
      obtain ⟨f, i⟩ := p
      have hnone : ∀ child, n.slotAt i ≠ .single (.node child) := by
        intro child hs
        rw [Node.child?_eq_some_iff_slotAt.2 ⟨f, i, hl, hs⟩] at h
        simp at h
      rw [run_editChild_of_no_child hl hnone, Node.get, hl]
      rfl

end InPlace

/-! ## The whole of the calls -/

namespace Node.DeeplySound

variable {σ α : Type} {n k : Node} {before : List String} {field : String}

/-- Where the path leads to a sub-node, the field that holds it decides. -/
theorem run_editAlong_of_child (hn : n.DeeplySound) (hk : n.follow? before = some k)
    {f : FieldSpec} {i : Nat} (hl : k.locate field = .ok (f, i)) {child child' : Node}
    (hchild : k.child? field = some child) {edit : StateT Node (StateM σ) α} {world world' : σ}
    {answer : α} (hrun : (edit.run child).run world = ((answer, child'), world')) :
    ((InPlace.editAlong edit (before ++ [field])).run n).run world =
      if f.admits k.home (.node child') then
        ((.around before (p := [field]) (Except.ok (some answer)),
          n.graft (before ++ [field]) child'), world')
      else
        ((.around before (p := [field])
          (Except.error (k.refusal f (.node child') (.notAdmitted f.typeNames))), n), world') := by
  have hs : k.slotAt i = .single (.node child) := slotAt_of_child? hl hchild
  have hlast : ((InPlace.editAlong edit [field]).run k).run world = _ :=
    InPlace.run_editChild_of_run hl hs hrun
  split
  · next hadmits =>
      rw [if_pos hadmits] at hlast
      rw [graft_append hk, graft_cons hl hs]
      exact InPlace.run_editAlong_around hn hk hlast (k.akin_putSlot i _)
  · next hadmits =>
      rw [if_neg hadmits] at hlast
      -- the last call has left the node that it found
      have hcall := InPlace.run_editAlong_around hn hk hlast (.refl k)
      rwa [graft_self hk] at hcall

/-- Where it stops at a field without sub-node, so do the calls. -/
theorem run_editAlong_of_stop (hn : n.DeeplySound) (hk : n.follow? before = some k)
    (hnone : k.child? field = none) (after : List String) (edit : StateT Node (StateM σ) α)
    (world : σ) :
    ((InPlace.editAlong edit (before ++ field :: after)).run n).run world
      = ((.around before (p := field :: after) ((k.get field).map fun _ => none), n), world) := by
  have hlast : ((InPlace.editAlong edit (field :: after)).run k).run world = _ :=
    InPlace.run_editChild_of_child?_eq_none hnone (InPlace.editAlong edit after) world
  have hcall := InPlace.run_editAlong_around hn hk hlast (.refl k)
  rwa [graft_self hk] at hcall

end Node.DeeplySound

/-- **Edits one inside the other act on the node at the end of their path and on nothing else.**  If the path
leads to a sub-node, the edit runs on it, and the judgement of the last field decides: either the node that
the edit leaves takes the place of that sub-node and of nothing else, or the whole tree stays.  If there is
a first field on the way that holds no sub-node or does not exist, the tree stays and the edit is not begun.
Either way the calls outside the last one made answer that all went well.  Every path is of one of the two
sorts. -/
theorem Node.Reachable.edits_along_path {σ α : Type} {n : Node} (hn : n.Reachable)
    (edit : StateT Node (StateM σ) α) (world : σ) :
    (∀ before field k f i child answer child' world', n.follow? before = some k →
      k.locate field = .ok (f, i) → k.child? field = some child →
      (edit.run child).run world = ((answer, child'), world') →
        ((InPlace.editAlong edit (before ++ [field])).run n).run world =
          (if f.admits k.home (.node child') then
            ((.around before (p := [field]) (Except.ok (some answer)),
              n.graft (before ++ [field]) child'), world')
          else
            ((.around before (p := [field])
              (Except.error (k.refusal f (.node child') (.notAdmitted f.typeNames))), n),
                world')) ∧
        n.Replaced (before ++ [field]) child' (n.graft (before ++ [field]) child')) ∧
    (∀ before field after k, n.follow? before = some k → k.child? field = none →
      ((InPlace.editAlong edit (before ++ field :: after)).run n).run world
        = ((.around before (p := field :: after) ((k.get field).map fun _ => none), n), world)) ∧
    ∀ path ≠ [],
      (∃ before field k child, path = before ++ [field] ∧ n.follow? before = some k ∧
        k.child? field = some child) ∨
      ∃ before field after k, path = before ++ field :: after ∧ n.follow? before = some k ∧
        k.child? field = none := by
  have hdeep : n.DeeplySound := hn.deeplySound
  refine ⟨?_, ?_, fun path hpath => n.reaches_or_stops hpath⟩
  · intro before field k f i child answer child' world' hk hl hchild hrun
    have hend : n.follow? (before ++ [field]) = some child := by
      rw [follow?_append hk, follow?_cons hchild, follow?]
    exact ⟨hdeep.run_editAlong_of_child hk hl hchild hrun, replaced_graft hend child'⟩
  · intro before field after k hk hnone
    exact hdeep.run_editAlong_of_stop hk hnone after edit world

/-! ### Edits in a tree of three links -/

namespace Scene.Link

/-- A link that holds the link with the one in the middle. -/
def whole : Node := .mk home schema [.single (.node outer), .many [], .many []]

theorem reachable_whole : whole.Reachable := by
  have hsupplies : made.Supplies (.node outer) := supplies_node (.of_name "outer" rfl)
  have hmade := reached_made.tail
    (.create "whole" (c := .construct "link" [.node outer]) List.mem_cons_self
      (by simpa [Creation.values] using hsupplies) rfl)
  exact ⟨_, hmade, .of_name "whole" rfl⟩

/-- Takes the links of a link away and tells how many calls were made. -/
def clearRest : StateT Node (StateM Nat) Nat := do
  let _ ← (InPlace.clear "rest").run
  let calls ← StateT.lift get
  StateT.lift (set (calls + 1))
  pure (calls + 1)

/-- Puts a link of another registry in the place of a link. -/
def putForeign : StateT Node (StateM Nat) Unit := set foreign

/-- Two links down the links of the one in the middle are taken away; three links down there is nothing to
edit; and a link of another registry does not come in. -/
theorem edits_along_path_whole :
    whole.Reachable ∧
      ((InPlace.editAlong clearRest ["next", "next"]).run whole).run 0
        = ((.ok (some (.ok (some (1 : Nat)))),
            whole.graft ["next", "next"] (.mk home schema [.unset, .many [], .many [.text "x"]])), 1) ∧
      ((InPlace.editAlong clearRest ["next", "next", "next", "rest"]).run whole).run 0
        = ((.ok (some (.ok (some (.ok none)))), whole), 0) ∧
      ((InPlace.editAlong putForeign ["next", "next"]).run whole).run 0
        = ((.ok (some (.error refused)), whole), 0) := by
  obtain ⟨hreach, hstop, -⟩ := reachable_whole.edits_along_path clearRest 0
  refine ⟨reachable_whole, ?_, ?_, ?_⟩
  · exact (hreach ["next"] "next" outer _ _ middle _ _ _ rfl rfl rfl rfl).1
  · exact hstop ["next", "next"] "next" ["rest"] middle rfl rfl
  · obtain ⟨hreplaced, -⟩ := reachable_whole.edits_along_path putForeign 0
    exact (hreplaced ["next"] "next" outer _ _ middle _ _ _ rfl rfl rfl rfl).1

end Scene.Link

end TreeSchema
