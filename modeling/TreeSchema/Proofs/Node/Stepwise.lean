/-
# TreeSchema.Proofs.Node.Stepwise — values by place, by name, or one field set after the other.

A node can be made of the same values in several ways: all of them by place, all of them by name, the first
ones by place and the rest by name, or by making a fresh node and setting its fields.  By place a value goes
to the field that its turn has come to; by name it goes to the first field that has the name, and a field
that is filled already is not filled again.  The ways agree, in the node and in every error, because the
names of a registered schema are different from each other, so that each name leads back to its place and
no field is met twice.
-/
import TreeSchema.Proofs.Node.Construction
import TreeSchema.Proofs.Node.Elementwise

namespace TreeSchema

/-! ## Setting fields in order -/

namespace InPlace

/-- Sets fields in order, up to the first that is refused. -/
def setAll {m : Type → Type} [Monad m] (values : List (String × Value)) : InPlace m Unit :=
  values.forM fun p => set p.1 p.2

/-- The node that work in place leaves, or the error that ends the work. -/
def result (x : InPlace Id Unit) (n : Node) : Except TreeError Node :=
  match x.outcome n with
  | (.ok (), n') => .ok n'
  | (.error e, _) => .error e

theorem result_setAll_cons (p : String × Value) (values : List (String × Value)) (n : Node) :
    (setAll (p :: values)).result n =
      match n.set p.1 p.2 with
      | .ok n' => (setAll values).result n'
      | .error e => .error e := by
  have hsplit : setAll (m := Id) (p :: values) = set p.1 p.2 >>= fun _ => setAll values := rfl
  cases hset : n.set p.1 p.2 with
  | ok n' =>
      have hcall : (set p.1 p.2).outcome n = (.ok (), n') :=
        Write.outcome_of_ok (w := .set p.1 p.2) hset
      rw [result, hsplit, outcome_bind_of_ok hcall]
      rfl
  | error e =>
      have hcall : (set p.1 p.2).outcome n = (.error e, n) :=
        Write.outcome_of_error (w := .set p.1 p.2) hset
      rw [result, hsplit, outcome_bind_of_error hcall]

end InPlace

/-- A fresh node of a kind with its fields set in order, or the first error. -/
def Sealed.nodeThenSet (home : Sealed) (kind : String) (values : List (String × Value)) :
    Except TreeError Node :=
  match home.node kind with
  | .ok n => (InPlace.setAll values).result n
  | .error e => .error e

/-! ## One way seen as another -/

namespace Node

theorem schema_write {n n' : Node} {p : FieldSpec × Nat} {v : Value} (h : n.write p v = .ok n') :
    n'.schema = n.schema := by
  obtain ⟨slot, -, rfl⟩ := write_eq_ok_iff.1 h
  rfl

/-- **Values of different names for free fields are set one after the other**: none of them is refused for
being the second. -/
theorem fillNamed_eq_setAll {n : Node} {filled : List Nat} {named : List (String × Value)}
    (honce : (named.map Prod.fst).Nodup)
    (hfree : ∀ p ∈ named, ∀ q, n.locate p.1 = .ok q → q.2 ∉ filled) :
    n.fillNamed filled named = (InPlace.setAll named).result n := by
  induction named generalizing n filled with
  | nil => rfl
  | cons p rest ih =>
      rw [List.map_cons, List.nodup_cons] at honce
      obtain ⟨hp, hrest⟩ := List.forall_mem_cons.1 hfree
      rw [fillNamed, InPlace.result_setAll_cons, set]
      cases hl : n.locate p.1 with
      | error e => rfl
      | ok q =>
          have hopen : filled.contains q.2 = false := by simpa using hp q hl
          simp only [hopen, Bool.false_eq_true, if_false]
          cases hw : n.write q p.2 with
          | error e => rfl
          | ok n' =>
              apply ih honce.2
              -- the field just filled is not that of a later name
              intro r hr q' hq'
              have hlocate : n.locate r.1 = .ok q' := by
                rw [locate_eq_ok_iff] at hq' ⊢
                rwa [schema_write hw] at hq'
              have hname : r.1 ≠ p.1 := fun hsame => honce.1 (List.mem_map.2 ⟨r, hr, hsame⟩)
              rw [List.mem_cons, not_or]
              exact ⟨place_ne_of_field_ne hlocate hl hname, hrest r hr q' hlocate⟩

/-- **The names of the fields from a place on lead to the places from there on.** -/
theorem fillNamed_eq_fillPositional {n : Node} (hnames : n.schema.fieldNames.Nodup) {k : Nat}
    {filled : List Nat} (hfree : ∀ i, k ≤ i → i ∉ filled) (values : List Value) :
    n.fillNamed filled ((n.schema.fieldNames.drop k).zip values)
      = n.fillPositional (n.schema.fields.zipIdx.drop k) values := by
  induction values generalizing n k filled with
  | nil =>
      rw [List.zip_nil_right, fillPositional_nil]
      rfl
  | cons v values ih =>
      rcases Nat.lt_or_ge k n.schema.fields.length with hk | hk
      · have hf : n.schema.fields[k]? = some n.schema.fields[k] := List.getElem?_eq_getElem hk
        have hname : n.schema.fieldNames.drop k
            = n.schema.fields[k].name :: n.schema.fieldNames.drop (k + 1) := by
          have hlt : k < n.schema.fieldNames.length := by simpa [NodeSchema.fieldNames] using hk
          rw [List.drop_eq_getElem_cons hlt]
          simp [NodeSchema.fieldNames]
        have hl : n.locate n.schema.fields[k].name = .ok (n.schema.fields[k], k) :=
          locate_eq_ok_iff.2 ((NodeSchema.locate?_eq_some_iff hnames).2 ⟨hf, rfl⟩)
        have hopen : filled.contains k = false := by simpa using hfree k (Nat.le_refl k)
        rw [hname, drop_places hf, List.zip_cons_cons, fillNamed, fillPositional]
        simp only [hl, hopen, Bool.false_eq_true, if_false]
        cases hw : n.write (n.schema.fields[k], k) v with
        | error e => rfl
        | ok n' =>
            have hschema : n'.schema = n.schema := schema_write hw
            rw [← hschema]
            apply ih (by rwa [hschema])
            intro i hi
            rw [List.mem_cons, not_or]
            exact ⟨by omega, hfree i (by omega)⟩
      · -- no field is left, by name nor by place
        have hfields : n.schema.fields.zipIdx.drop k = [] := List.drop_eq_nil_of_le (by simpa using hk)
        have hnone : n.schema.fieldNames.drop k = [] :=
          List.drop_eq_nil_of_le (by simpa [NodeSchema.fieldNames] using hk)
        rw [hfields, hnone]
        rfl

/-- Positional values are written in two parts as in one. -/
theorem fillPositional_take_drop {n : Node} {ps : List (FieldSpec × Nat)} (values : List Value)
    (k : Nat) :
    n.fillPositional ps values =
      match n.fillPositional ps (values.take k) with
      | .ok n' => n'.fillPositional (ps.drop k) (values.drop k)
      | .error e => .error e := by
  induction k generalizing n ps values with
  | zero => simp [fillPositional_nil]
  | succ k ih =>
      cases values with
      | nil => simp [fillPositional_nil]
      | cons v values =>
          cases ps with
          | nil => simp [fillPositional]
          | cons p ps =>
              rw [List.take_succ_cons, List.drop_succ_cons, List.drop_succ_cons, fillPositional,
                fillPositional]
              cases hw : n.write p v with
              | error e => rfl
              | ok n' => exact ih values

theorem schema_fillPositional {n n' : Node} {ps : List (FieldSpec × Nat)} {values : List Value}
    (h : n.fillPositional ps values = .ok n') : n'.schema = n.schema := by
  induction ps generalizing n values with
  | nil =>
      obtain rfl : n = n' := by simpa [fillPositional] using h
      rfl
  | cons p ps ih =>
      cases values with
      | nil =>
          rw [fillPositional_nil] at h
          rw [Except.ok.inj h]
      | cons v values =>
          rw [fillPositional] at h
          cases hw : n.write p v with
          | error e => simp [hw] at h
          | ok n₁ =>
              rw [hw] at h
              exact (ih h).trans (schema_write hw)

end Node

/-! ## All ways -/

namespace Sealed

variable {home : Sealed} {kind : String} {s : NodeSchema} {values : List Value}

/-- The first values by place and the rest by name are all of them by place. -/
theorem build_take_drop (hnames : s.fieldNames.Nodup) (hs : home.registry.get? kind = some s)
    (hcount : values.length ≤ s.fields.length) {k : Nat} (hk : k ≤ values.length) :
    home.build kind (values.take k) ((s.fieldNames.zip values).drop k)
      = (Node.fresh home s).fillPositional s.fields.zipIdx values := by
  have hlength : (values.take k).length = k := by
    rw [List.length_take]
    omega
  have hpairs : (s.fieldNames.zip values).drop k
      = (s.fieldNames.drop k).zip (values.drop k) := List.drop_zipWith
  rw [build_of_get? hs, hlength, if_neg (by omega), hpairs, Node.fillPositional_take_drop values k]
  cases hfirst : (Node.fresh home s).fillPositional s.fields.zipIdx (values.take k) with
  | error e => rfl
  | ok n =>
      obtain rfl : n.schema = s := Node.schema_fillPositional hfirst
      apply Node.fillNamed_eq_fillPositional hnames
      intro i hi
      rw [List.mem_range]
      omega

/-- **In whichever way values are given, they make the same node or the same error.**  They may all come by
place, all by name, up to any point by place and then by name, or be set into a fresh node one after the
other. -/
theorem ways_agree (hgrown : home.registry.Grown) (hs : home.registry.get? kind = some s)
    (hcount : values.length ≤ s.fields.length) {k : Nat} (hk : k ≤ values.length) :
    home.constructWith kind (s.fieldNames.zip values) = home.construct kind values ∧
      home.build kind (values.take k) ((s.fieldNames.zip values).drop k)
        = home.construct kind values ∧
      home.nodeThenSet kind (s.fieldNames.zip values) = home.construct kind values := by
  have hnames : s.fieldNames.Nodup :=
    (hgrown.proper _ (hgrown.coherent.get?_eq_some_iff.1 hs).1).names_nodup
  have hplaces : home.construct kind values
      = (Node.fresh home s).fillPositional s.fields.zipIdx values := by
    have hall := build_take_drop hnames hs hcount (Nat.le_refl values.length)
    have hnone : (s.fieldNames.zip values).drop values.length = [] := by
      apply List.drop_eq_nil_of_le
      rw [List.length_zip]
      exact Nat.min_le_right _ _
    rwa [List.take_length, hnone] at hall
  have hsplit : ∀ j ≤ values.length,
      home.build kind (values.take j) ((s.fieldNames.zip values).drop j)
        = home.construct kind values := by
    intro j hj
    rw [hplaces]
    exact build_take_drop hnames hs hcount hj
  have hwith : home.constructWith kind (s.fieldNames.zip values) = home.construct kind values :=
    hsplit 0 (Nat.zero_le _)
  refine ⟨hwith, hsplit k hk, ?_⟩
  have honce : ((s.fieldNames.zip values).map Prod.fst).Nodup := by
    rw [List.zip_eq_zip_take_min, List.map_fst_zip (by simp)]
    exact hnames.sublist (List.take_sublist _ _)
  have hset : home.constructWith kind (s.fieldNames.zip values)
      = home.nodeThenSet kind (s.fieldNames.zip values) := by
    have hn : home.node kind = .ok (Node.fresh home s) := node_eq_ok_iff.2 ⟨s, hs, rfl⟩
    rw [constructWith, build_of_get? hs, if_neg (by simp), Node.fillPositional_nil, nodeThenSet, hn]
    exact Node.fillNamed_eq_setAll honce fun _ _ _ _ => List.not_mem_nil
  exact hset.symm.trans hwith

/-- A link is refused its second value, and in the same words, whether that one is given by place, by name or
afterwards. -/
theorem ways_agree_middle :
    (Scene.Link.home.registry.Grown ∧
        Scene.Link.home.registry.get? "link" = some Scene.Link.schema ∧
        [Value.node Scene.Link.middle, .seq [.node Scene.Link.plain, .null]].length
          ≤ Scene.Link.schema.fields.length ∧
        1 ≤ [Value.node Scene.Link.middle, .seq [.node Scene.Link.plain, .null]].length) ∧
      Scene.Link.home.build "link" [.node Scene.Link.middle]
          [("rest", .seq [.node Scene.Link.plain, .null])]
        = .error (.wrongType ⟨"link", "rest", "None", .elementNotAdmitted 1 "link"⟩) ∧
      Scene.Link.home.nodeThenSet "link"
          [("next", .node Scene.Link.middle), ("rest", .seq [.node Scene.Link.plain, .null])]
        = .error (.wrongType ⟨"link", "rest", "None", .elementNotAdmitted 1 "link"⟩) := by
  have hgrown : Scene.Link.home.registry.Grown :=
    .register .empty (s := Scene.Link.schema) rfl
  have hs : Scene.Link.home.registry.get? "link" = some Scene.Link.schema := rfl
  have hcount : [Value.node Scene.Link.middle, .seq [.node Scene.Link.plain, .null]].length
      ≤ Scene.Link.schema.fields.length := by decide
  have hk : 1 ≤ [Value.node Scene.Link.middle, .seq [.node Scene.Link.plain, .null]].length := by
    decide
  obtain ⟨-, hsplit, hset⟩ := ways_agree hgrown hs hcount hk
  exact ⟨⟨hgrown, hs, hcount, hk⟩, hsplit.trans rfl, hset.trans rfl⟩

end Sealed

end TreeSchema
