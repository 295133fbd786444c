/-
# TreeSchema.Proofs.Node.PathText — the text of a path leads to one place.

Finishing a tree says where it stopped in a text: names of fields, numbers of elements in brackets, dots in
between.  The text reads back, because registering lets no name pass that is no identifier, and no character
of an identifier is a dot or a bracket.  Splitting at the dots and then at the opening brackets gives the
steps.

Two places are two positions, and a position is told by numbers alone, so that it says which slot is meant
whatever the names of the fields are.  That different positions have different steps is a second promise of
registering: no two fields of a schema have one name.
-/
import TreeSchema.Proofs.List
import TreeSchema.Proofs.Node.Completion
import TreeSchema.Proofs.Scene.Origin

namespace TreeSchema

/-! ## Reading the text of a path -/

namespace PathStep

/-- The number of an element and the bracket behind it. -/
def placeChars (i : Nat) : List Char := Nat.toDigits 10 i ++ [']']

/-- The number in front of the closing bracket. -/
def placeOfChars (cs : List Char) : Nat := Nat.ofDigitChars 10 cs.dropLast 0

/-- The step that is spelt between two dots: a name, and numbers behind opening brackets. -/
def ofChars (cs : List Char) : PathStep :=
  let parts := cs.splitOn '['
  ⟨String.ofList (parts.headD []), parts.tail.map placeOfChars⟩

/-- The steps that a text spells.  The empty text spells none. -/
def split (text : String) : List PathStep :=
  if text = "" then [] else (text.toList.splitOn '.').map ofChars

@[simp] theorem placeOfChars_placeChars (i : Nat) : placeOfChars (placeChars i) = i := by
  simp [placeOfChars, placeChars, Nat.ofDigitChars_ten_toDigits]

/-- No number with its bracket holds what is split at. -/
theorem not_mem_placeChars {c : Char} (hc : c = '.' ∨ c = '[') (i : Nat) : c ∉ placeChars i := by
  intro hmem
  rcases List.mem_append.1 hmem with hdigit | hbracket
  · have hisDigit := Nat.isDigit_of_mem_toDigits (by decide) (by decide) hdigit
    rcases hc with rfl | rfl <;> exact absurd hisDigit (by decide)
  · obtain rfl := List.mem_singleton.1 hbracket
    revert hc
    decide

/-- No name holds what is split at. -/
theorem not_mem_field {p : PathStep} (h : isIdentifier p.field = true) {c : Char}
    (hc : c = '.' ∨ c = '[') : c ∉ p.field.toList := by
  refine not_mem_of_isIdentifier h ?_
  rcases hc with rfl | rfl <;> decide

/-- A step is written as its parts with opening brackets between them. -/
theorem toList_text (p : PathStep) :
    p.text.toList = ['['].intercalate (p.field.toList :: p.places.map placeChars) := by
  obtain ⟨field, places⟩ := p
  rw [List.intercalate_cons_eq_flatMap, List.flatMap_map]
  induction places generalizing field with
  | nil => simp [text]
  | cons i places ih =>
      have hstep : text ⟨field, i :: places⟩ = text ⟨elementStep field i, places⟩ := rfl
      have helement : (elementStep field i).toList = field.toList ++ '[' :: placeChars i := by
        simp [elementStep, placeChars, Nat.toList_repr]
      rw [hstep, ih, helement]
      simp

/-- A step whose field is an identifier reads back. -/
theorem ofChars_text {p : PathStep} (h : isIdentifier p.field = true) :
    ofChars p.text.toList = p := by
  have hparts : ∀ l ∈ p.field.toList :: p.places.map placeChars, '[' ∉ l := by
    rw [List.forall_mem_cons, List.forall_mem_map]
    exact ⟨not_mem_field h (.inr rfl), fun i _ => not_mem_placeChars (.inr rfl) i⟩
  rw [ofChars, toList_text, List.splitOn_intercalate '[' hparts (List.cons_ne_nil _ _)]
  simp [Function.comp_def]

/-- The text of a step has no dot in it. -/
theorem dot_not_mem_text {p : PathStep} (h : isIdentifier p.field = true) :
    '.' ∉ p.text.toList := by
  rw [toList_text]
  intro hdot
  rcases List.mem_of_mem_intercalate hdot with hbracket | ⟨l, hl, hpart⟩
  · revert hbracket
    decide
  · rcases List.mem_cons.1 hl with rfl | hl
    · exact not_mem_field h (.inl rfl) hpart
    · obtain ⟨i, -, rfl⟩ := List.mem_map.1 hl
      exact not_mem_placeChars (.inl rfl) i hpart

/-- **A path whose fields are identifiers reads back from its text.** -/
theorem split_join {path : List PathStep} (h : ∀ p ∈ path, isIdentifier p.field = true) :
    split (join path) = path := by
  cases path with
  | nil => rfl
  | cons p path =>
      have hne : join (p :: path) ≠ "" := by
        intro hempty
        have hchars := congrArg String.toList hempty
        rw [join, String.toList_intercalate, List.map_cons, List.map_cons,
          List.intercalate_cons_eq_flatMap, toList_text, List.intercalate_cons_eq_flatMap] at hchars
        have hfield : p.field = "" ∧ ∀ i, i ∉ p.places := by
          simpa using (List.append_eq_nil_iff.1 hchars).1
        exact ne_empty_of_isIdentifier (h p List.mem_cons_self) hfield.1
      have hparts : ∀ l ∈ ((p :: path).map text).map String.toList, '.' ∉ l := by
        simp only [List.forall_mem_map]
        exact fun q hq => dot_not_mem_text (h q hq)
      rw [split, if_neg hne, join, String.toList_intercalate]
      have hsplit := List.splitOn_intercalate '.' hparts (by simp)
      change List.map ofChars (List.splitOn '.' (['.'].intercalate _)) = _
      rw [hsplit, List.map_map, List.map_map, List.map_eq_self_iff]
      exact fun q hq => ofChars_text (h q hq)

end PathStep

/-! ## Positions -/

/-- The number of a field at each level, and that of an element where the field is a sequence. -/
abbrev Position := List (Nat × Option Nat)

theorem Value.asNode?_eq_some_iff {v : Value} {c : Node} : v.asNode? = some c ↔ v = .node c := by
  cases v <;> simp [asNode?]

namespace Slot

variable {s : Slot} {j : Option Nat} {c : Node}

/-- The sub-node that a slot holds by itself, or as the element at a place. -/
def child? : Slot → Option Nat → Option Node
  | .single v, none => v.asNode?
  | .many items, some k => items[k]?.bind Value.asNode?
  | _, _ => none

theorem child?_eq_some_iff :
    s.child? j = some c ↔
      (s = .single (.node c) ∧ j = none) ∨
        ∃ items k, s = .many items ∧ j = some k ∧ items[k]? = some (.node c) := by
  cases s <;> cases j <;>
    simp [child?, Value.asNode?_eq_some_iff, Option.bind_eq_some_iff]

theorem node_mem_values_of_child? (h : s.child? j = some c) : Value.node c ∈ s.values := by
  obtain ⟨rfl, -⟩ | ⟨items, k, rfl, -, hk⟩ := child?_eq_some_iff.1 h
  · exact List.mem_singleton_self _
  · exact List.mem_of_getElem? hk

end Slot

namespace Node

/-- The sub-node at a position, with the steps of the path to it. -/
def visit? (n : Node) : Position → Option Visit
  | [] => some ([], n)
  | (i, j) :: rest =>
    match n.schema.fields[i]?, n.slots[i]? with
    | some f, some s => (s.child? j).bind fun c => (c.visit? rest).map (Visit.under ⟨f.name, j.toList⟩)
    | _, _ => none

variable {n m : Node} {i : Nat} {j : Option Nat} {rest pos pos' : Position} {p p' : Visit}
  {path : List PathStep}

theorem visit?_cons_eq_some_iff :
    n.visit? ((i, j) :: rest) = some p ↔
      ∃ f s c q, n.schema.fields[i]? = some f ∧ n.slots[i]? = some s ∧ s.child? j = some c ∧
        c.visit? rest = some q ∧ p = q.under ⟨f.name, j.toList⟩ := by
  rw [visit?]
  cases n.schema.fields[i]? with
  | none => simp
  | some f =>
      cases n.slots[i]? with
      | none => simp
      | some s =>
          simp only [Option.bind_eq_some_iff, Option.map_eq_some_iff, Option.some.injEq,
            exists_and_left, exists_eq_left', eq_comm (a := p)]

/-- The paths to positions are those that lead somewhere. -/
theorem exists_position_iff : (∃ pos, n.visit? pos = some (path, m)) ↔ n.Leads path m := by
  constructor
  · rintro ⟨pos, h⟩
    induction pos generalizing n path with
    | nil =>
        obtain ⟨rfl, rfl⟩ := Prod.mk.inj (Option.some.inj h)
        exact .here n
    | cons step rest ih =>
        obtain ⟨f, s, c, ⟨path, k⟩, hf, hs, hc, hq, hp⟩ := visit?_cons_eq_some_iff.1 h
        obtain ⟨rfl, rfl⟩ := Prod.mk.inj hp
        have hfield : (f, s) ∈ n.fields := mem_fields_iff.2 ⟨_, hf, hs⟩
        obtain ⟨rfl, hj⟩ | ⟨items, k, rfl, hj, hk⟩ := Slot.child?_eq_some_iff.1 hc
        · rw [hj]
          exact .single hfield (ih hq)
        · rw [hj]
          exact .element hfield hk (ih hq)
  · intro h
    induction h with
    | here n => exact ⟨[], rfl⟩
    | single hfield _ ih =>
        obtain ⟨rest, hrest⟩ := ih
        obtain ⟨i, hf, hs⟩ := mem_fields_iff.1 hfield
        exact ⟨(i, none) :: rest, visit?_cons_eq_some_iff.2
          ⟨_, _, _, _, hf, hs, Slot.child?_eq_some_iff.2 (.inl ⟨rfl, rfl⟩), hrest, rfl⟩⟩
    | @element _ _ _ _ items k _ hfield hk _ ih =>
        obtain ⟨rest, hrest⟩ := ih
        obtain ⟨i, hf, hs⟩ := mem_fields_iff.1 hfield
        exact ⟨(i, some k) :: rest, visit?_cons_eq_some_iff.2
          ⟨_, _, _, _, hf, hs, Slot.child?_eq_some_iff.2 (.inr ⟨items, k, rfl, rfl, hk⟩), hrest, rfl⟩⟩

namespace Reachable

/-- What a slot of a node that a run can show holds, a run can show. -/
theorem of_child? (h : n.Reachable) {s : Slot} {c : Node} (hs : n.slots[i]? = some s)
    (hc : s.child? j = some c) : c.Reachable :=
  h.of_contains ⟨s, List.mem_of_getElem? hs, _, Slot.node_mem_values_of_child? hc, .here c⟩

/-- The fields on the way to a position have names that registering let pass. -/
theorem isIdentifier_of_visit? (h : n.Reachable) (hp : n.visit? pos = some p) :
    ∀ q ∈ p.1, isIdentifier q.field = true := by
  -- on the position, for every node that a run can show, since what lies inside such a node is one too
  induction pos generalizing n p with
  | nil =>
      obtain rfl := Option.some.inj hp
      simp
  | cons step rest ih =>
      obtain ⟨f, s, c, q, hf, hs, hc, hq, rfl⟩ := visit?_cons_eq_some_iff.1 hp
      exact List.forall_mem_cons.2
        ⟨h.proper_schema.isIdentifier_name f (List.mem_of_getElem? hf), ih (h.of_child? hs hc) hq⟩

/-- So the path to a position reads back from its text. -/
theorem split_join_of_visit? (h : n.Reachable) (hp : n.visit? pos = some p) :
    PathStep.split (PathStep.join p.1) = p.1 :=
  PathStep.split_join (h.isIdentifier_of_visit? hp)

/-- The steps to a position tell its numbers. -/
theorem position_eq_of_path (h : n.Reachable) (hp : n.visit? pos = some p)
    (hp' : n.visit? pos' = some p') (hpath : p.1 = p'.1) : pos = pos' := by
  induction pos generalizing n pos' p p' with
  | nil =>
      obtain rfl := Option.some.inj hp
      cases pos' with
      | nil => rfl
      | cons step' rest' =>
          obtain ⟨f', s', c', q', -, -, -, -, rfl⟩ := visit?_cons_eq_some_iff.1 hp'
          cases hpath
  | cons step rest ih =>
      obtain ⟨i, j⟩ := step
      obtain ⟨f, s, c, q, hf, hs, hc, hq, rfl⟩ := visit?_cons_eq_some_iff.1 hp
      cases pos' with
      | nil =>
          obtain rfl := Option.some.inj hp'
          cases hpath
      | cons step' rest' =>
          obtain ⟨i', j'⟩ := step'
          obtain ⟨f', s', c', q', hf', hs', hc', hq', rfl⟩ := visit?_cons_eq_some_iff.1 hp'
          obtain ⟨hstep, hrest⟩ := List.cons.inj hpath
          obtain ⟨hname, hplaces⟩ := PathStep.mk.inj hstep
          -- one name is one slot, and then one place is one sub-node: from here on the nodes are the same
          obtain rfl : i = i' :=
            NodeSchema.place_eq_of_name h.proper_schema.names_nodup hf hf' hname
          obtain rfl : j = j' := by simpa using congrArg List.head? hplaces
          obtain rfl : s = s' := Option.some.inj (hs.symm.trans hs')
          obtain rfl : c = c' := Option.some.inj (hc.symm.trans hc')
          rw [ih (h.of_child? hs hc) hq hq' hrest]

/-- Two positions with the same text are one. -/
theorem position_eq_of_join (h : n.Reachable) (hp : n.visit? pos = some p)
    (hp' : n.visit? pos' = some p') (htext : PathStep.join p.1 = PathStep.join p'.1) :
    pos = pos' := by
  refine h.position_eq_of_path hp hp' ?_
  calc p.1 = PathStep.split (PathStep.join p.1) := (h.split_join_of_visit? hp).symm
    _ = PathStep.split (PathStep.join p'.1) := by rw [htext]
    _ = p'.1 := h.split_join_of_visit? hp'

/-- A report under a path is that of a visit of the walk. -/
theorem exists_visit_of_nested (h : n.Reachable) {text : String} {cause : TreeError}
    (he : n.finalizeTree = .error (.nested text cause)) :
    ∃ path m, (path, m) ∈ n.walk ∧ PathStep.join path = text ∧ m.finalize = .error cause := by
  rw [finalizeTree_eq_firstFault n h.deeplySound] at he
  obtain ⟨before, ⟨path, m⟩, after, hsplit, -, hmissing, hfault⟩ := exists_of_firstFault_eq_error he
  refine ⟨path, m, by simp [hsplit], ?_⟩
  rw [finalize_of_missing hmissing]
  cases path with
  | nil => cases hfault
  | cons step path =>
      obtain ⟨rfl, rfl⟩ := TreeError.nested.inj hfault
      exact ⟨rfl, rfl⟩

/-- **The text of a path names one position.**  In a node that a run can show every sub-node has a
position, the text of the path to a position splits into the steps again, and no two positions have the
same text.  So the path that finishing the tree reports is the path to one sub-node alone, and it is that
sub-node that is not finished. -/
theorem path_names_one_position (h : n.Reachable) :
    (∀ m, (∃ pos path, n.visit? pos = some (path, m)) ↔ m = n ∨ n.Contains m) ∧
    (∀ pos path m, n.visit? pos = some (path, m) → PathStep.split (PathStep.join path) = path) ∧
    (∀ pos path m pos' path' m', n.visit? pos = some (path, m) → n.visit? pos' = some (path', m') →
      PathStep.join path = PathStep.join path' → pos = pos') ∧
    ∀ text cause, n.finalizeTree = .error (.nested text cause) →
      ∃ pos m, n.visit? pos = some (PathStep.split text, m) ∧ m.finalize = .error cause ∧
        ∀ pos' path' m', n.visit? pos' = some (path', m') → PathStep.join path' = text →
          pos' = pos ∧ m' = m := by
  refine ⟨fun m => ?_, fun pos path m hp => h.split_join_of_visit? hp,
    fun pos path m pos' path' m' hp hp' => h.position_eq_of_join hp hp', fun text cause he => ?_⟩
  · rw [← h.deeplySound.exists_visit_iff, exists_comm]
    simp only [h.deeplySound.mem_walk_iff, exists_position_iff]
  · obtain ⟨path, m, hwalk, rfl, hcause⟩ := h.exists_visit_of_nested he
    obtain ⟨pos, hpos⟩ := exists_position_iff.2 (h.deeplySound.mem_walk_iff.1 hwalk)
    refine ⟨pos, m, by rw [hpos, h.split_join_of_visit? hpos], hcause, ?_⟩
    intro pos' path' m' hp' htext
    obtain rfl := h.position_eq_of_join hp' hpos htext
    exact ⟨rfl, congrArg Prod.snd (Option.some.inj (hp'.symm.trans hpos))⟩

end Reachable

/-- In the tree of named links the report names the second link that the one in the middle goes on with:
the first field, and in it the second field at place one. -/
theorem path_names_one_position_outer :
    Scene.Link.outer.Reachable ∧
      Scene.Link.outer.finalizeTree =
        .error (.nested "next.rest[1]" (.incomplete "link" ["names"])) ∧
      Scene.Link.outer.visit? [(0, none), (1, some 1)] =
        some (PathStep.split "next.rest[1]", Scene.Link.plain) ∧
      ∀ pos path m, Scene.Link.outer.visit? pos = some (path, m) →
        PathStep.join path = "next.rest[1]" → pos = [(0, none), (1, some 1)] := by
  have hreachable := Scene.Link.reachable_outer
  obtain ⟨-, hsplit, hone, -⟩ := hreachable.path_names_one_position
  have hpos : Scene.Link.outer.visit? [(0, none), (1, some 1)] =
      some ([⟨"next", []⟩, ⟨"rest", [1]⟩], Scene.Link.plain) := rfl
  have htext : PathStep.join [⟨"next", []⟩, ⟨"rest", [1]⟩] = "next.rest[1]" := rfl
  refine ⟨hreachable, rfl, ?_, fun pos path m hp hjoin => ?_⟩
  · rw [← htext, hsplit _ _ _ hpos, hpos]
  · exact hone _ _ _ _ _ _ hp hpos (hjoin.trans htext.symm)

end Node

end TreeSchema
