/-
# TreeSchema.Proofs.Node.Construction — what a node is made of, and why it is not made.

Values for a new node come by place and by name, and are written one after the other into a node that is
already partly filled.  Whether this succeeds does not depend on the order: `Fillable` asks of the values
given, all at once, that they are not too many, that each name is the name of a field that is still free,
and that each value fits its field.  If so, the node is the one that holds each value in its field and
nothing else.

The order decides only which error is reported.  `FirstOffence` says which: the earliest value that cannot
be written after those before it, and for a named value first the name, then the field being free, then
the value itself.
-/
import TreeSchema.Proofs.List
import TreeSchema.Proofs.Scene
import Mathlib.Data.List.Induction
import Mathlib.Data.List.Nodup

namespace TreeSchema

/-! ## What is asked of the values -/

/-- The names of the fields that positional values fill, and the names given. -/
def NodeSchema.taken (s : NodeSchema) (positional : List Value) (named : List (String × Value)) :
    List String :=
  s.fieldNames.take positional.length ++ named.map Prod.fst

/-- A node of a schema can be filled with values by place and by name. -/
structure NodeSchema.Fillable (home : Sealed) (s : NodeSchema) (positional : List Value)
    (named : List (String × Value)) : Prop where
  count : positional.length ≤ s.fields.length
  known : ∀ p ∈ named, p.1 ∈ s.fieldNames
  once : (named.map Prod.fst).Nodup
  free : ∀ p ∈ named, p.1 ∉ s.fieldNames.take positional.length
  positional_fits : ∀ (i : Nat) f v, s.fields[i]? = some f → positional[i]? = some v →
    f.Accepts home v
  named_fits : ∀ p ∈ named, ∀ f ∈ s.fields, f.name = p.1 → f.Accepts home p.2

/-- What is wrong with a named value, the names in `taken` being those of fields already filled. -/
inductive NodeSchema.Offends (home : Sealed) (s : NodeSchema) (taken : List String) :
    String × Value → TreeError → Prop
  | unknown {name : String} (v : Value) : name ∉ s.fieldNames →
      Offends home s taken (name, v) (.unknownField s.kind name)
  | duplicate {name : String} (v : Value) : name ∈ s.fieldNames → name ∈ taken →
      Offends home s taken (name, v) (.duplicateValue s.kind name)
  | refused {f : FieldSpec} {v : Value} {e : TreeError} : f ∈ s.fields → f.name ∉ taken →
      f.Refuses home s.kind v e → Offends home s taken (f.name, v) e

/-- The first thing that keeps a node from being made.  Values before it are without fault. -/
inductive Sealed.FirstOffence (home : Sealed) (kind : String) (positional : List Value)
    (named : List (String × Value)) : TreeError → Prop
  | kind : home.registry.get? kind = none → FirstOffence home kind positional named (.unknownKind kind)
  | count {s : NodeSchema} : home.registry.get? kind = some s →
      s.fields.length < positional.length →
        FirstOffence home kind positional named
          (.tooManyValues kind s.fields.length positional.length)
  | positional {s : NodeSchema} {before : List Value} {v : Value} {rest : List Value} {f : FieldSpec}
      {e : TreeError} : home.registry.get? kind = some s →
      positional.length ≤ s.fields.length → positional = before ++ v :: rest →
      s.Fillable home before [] → s.fields[before.length]? = some f → f.Refuses home kind v e →
        FirstOffence home kind positional named e
  | named {s : NodeSchema} {before : List (String × Value)} {p : String × Value}
      {rest : List (String × Value)} {e : TreeError} : home.registry.get? kind = some s →
      named = before ++ p :: rest → s.Fillable home positional before →
      s.Offends home (s.taken positional before) p e → FirstOffence home kind positional named e

namespace NodeSchema

variable {home : Sealed} {s : NodeSchema} {positional : List Value}
  {named : List (String × Value)}

theorem fillable_nil (home : Sealed) (s : NodeSchema) : s.Fillable home [] [] := by
  refine ⟨?_, ?_, ?_, ?_, ?_, ?_⟩ <;> simp

/-- One more positional value is asked to have a field at its place, and to fit it. -/
theorem fillable_concat_positional_iff {v : Value} :
    s.Fillable home (positional ++ [v]) [] ↔
      s.Fillable home positional [] ∧
        ∃ f, s.fields[positional.length]? = some f ∧ f.Accepts home v := by
  constructor
  · intro h
    have hcount : positional.length < s.fields.length := by
      have hle := h.count
      rw [List.length_append, List.length_singleton] at hle
      omega
    refine ⟨⟨by omega, by simp, by simp, by simp, ?_, by simp⟩, s.fields[positional.length],
      List.getElem?_eq_getElem hcount, ?_⟩
    · intro i f w hf hw
      have hi : i < positional.length := (List.getElem?_eq_some_iff.1 hw).1
      apply h.positional_fits i f w hf
      rw [List.getElem?_append_left hi, hw]
    · apply h.positional_fits positional.length _ v (List.getElem?_eq_getElem hcount)
      simp
  · rintro ⟨h, f, hf, hv⟩
    have hcount : positional.length < s.fields.length := (List.getElem?_eq_some_iff.1 hf).1
    refine ⟨?_, by simp, by simp, by simp, ?_, by simp⟩
    · rw [List.length_append, List.length_singleton]
      omega
    · intro i g w hg hw
      rcases Nat.lt_or_ge i positional.length with hi | hi
      · rw [List.getElem?_append_left hi] at hw
        exact h.positional_fits i g w hg hw
      · -- the only place left is that of the last value
        have hlast : i = positional.length := by
          have hlt := (List.getElem?_eq_some_iff.1 hw).1
          rw [List.length_append, List.length_singleton] at hlt
          omega
        subst hlast
        obtain rfl : v = w := by simpa using hw
        obtain rfl : f = g := Option.some.inj (hf.symm.trans hg)
        exact hv

/-- One more named value is asked to name a field that is free, and to fit it. -/
theorem fillable_concat_iff {p : String × Value} :
    s.Fillable home positional (named ++ [p]) ↔
      s.Fillable home positional named ∧ p.1 ∈ s.fieldNames ∧ p.1 ∉ s.taken positional named ∧
        ∀ f ∈ s.fields, f.name = p.1 → f.Accepts home p.2 := by
  have hmem : ∀ {P : String × Value → Prop},
      (∀ q ∈ named ++ [p], P q) ↔ (∀ q ∈ named, P q) ∧ P p := by
    intro P
    simp [or_imp, forall_and]
  have honce : ((named ++ [p]).map Prod.fst).Nodup ↔
      (named.map Prod.fst).Nodup ∧ p.1 ∉ named.map Prod.fst := by
    rw [List.map_append, List.map_singleton, ← List.concat_eq_append, List.nodup_concat, and_comm]
  constructor
  · intro h
    obtain ⟨hknown, hp⟩ := hmem.1 h.known
    obtain ⟨hnames, hnew⟩ := honce.1 h.once
    obtain ⟨hfree, hopen⟩ := hmem.1 h.free
    obtain ⟨hfits, hv⟩ := hmem.1 h.named_fits
    refine ⟨⟨h.count, hknown, hnames, hfree, h.positional_fits, hfits⟩, hp, ?_, hv⟩
    rw [taken, List.mem_append, not_or]
    exact ⟨hopen, hnew⟩
  · rintro ⟨h, hp, htaken, hv⟩
    rw [taken, List.mem_append, not_or] at htaken
    exact ⟨h.count, hmem.2 ⟨h.known, hp⟩, honce.2 ⟨h.once, htaken.2⟩,
      hmem.2 ⟨h.free, htaken.1⟩, h.positional_fits, hmem.2 ⟨h.named_fits, hv⟩⟩

/-- The order of the named values does not matter. -/
theorem Fillable.perm {named' : List (String × Value)} (h : s.Fillable home positional named)
    (hp : named.Perm named') : s.Fillable home positional named' :=
  ⟨h.count, fun p hmem => h.known p (hp.mem_iff.2 hmem), ((hp.map Prod.fst).nodup_iff).1 h.once,
    fun p hmem => h.free p (hp.mem_iff.2 hmem), h.positional_fits,
    fun p hmem => h.named_fits p (hp.mem_iff.2 hmem)⟩

theorem Fillable.of_named (h : s.Fillable home positional named) : s.Fillable home positional [] :=
  ⟨h.count, by simp, by simp, by simp, h.positional_fits, by simp⟩

/-- A named value offends, or it may be written. -/
theorem offends_or_fits (home : Sealed) (s : NodeSchema) (taken : List String)
    (hnames : s.fieldNames.Nodup) (p : String × Value) :
    (∃ e, s.Offends home taken p e) ∨
      p.1 ∈ s.fieldNames ∧ p.1 ∉ taken ∧ ∀ f ∈ s.fields, f.name = p.1 → f.Accepts home p.2 := by
  obtain ⟨name, v⟩ := p
  by_cases hknown : name ∈ s.fieldNames
  · by_cases htaken : name ∈ taken
    · exact Or.inl ⟨_, .duplicate v hknown htaken⟩
    · obtain ⟨f, hf, rfl⟩ := List.mem_map.1 hknown
      rcases f.accepts_or_refuses home s.kind v with hv | ⟨e, he⟩
      · refine Or.inr ⟨hknown, htaken, ?_⟩
        intro g hg hname
        obtain rfl : g = f := List.inj_on_of_nodup_map hnames hg hf hname
        exact hv
      · exact Or.inl ⟨e, .refused hf htaken he⟩
  · exact Or.inl ⟨_, .unknown v hknown⟩

end NodeSchema

/-! ## The node that is made -/

/-- The value given for a field: the one for its place, or else the one for its name. -/
def FieldSpec.given? (f : FieldSpec) (i : Nat) (positional : List Value)
    (named : List (String × Value)) : Option Value :=
  positional[i]?.or (named.lookup f.name)

/-- What a field is to hold: the value given for it, or what it holds in a fresh node. -/
def FieldSpec.filled (f : FieldSpec) (i : Nat) (positional : List Value)
    (named : List (String × Value)) : Slot :=
  match f.given? i positional named with
  | some v => v.asSlot
  | none => f.multiplicity.defaultSlot

/-- The node of a schema that holds the values given for its fields, and nothing else. -/
def Node.holding (home : Sealed) (s : NodeSchema) (positional : List Value)
    (named : List (String × Value)) : Node :=
  .mk home s (s.fields.zipIdx.map fun p => p.1.filled p.2 positional named)

namespace Node

variable {home : Sealed} {s : NodeSchema} {positional positional' : List Value}
  {named named' : List (String × Value)} {f : FieldSpec} {v : Value} {i : Nat} {e : TreeError}

theorem getElem?_slots_holding (home : Sealed) (s : NodeSchema) (positional : List Value)
    (named : List (String × Value)) (i : Nat) :
    (holding home s positional named).slots[i]?
      = s.fields[i]?.map fun f => f.filled i positional named := by
  rw [holding, slots, List.getElem?_map, List.getElem?_zipIdx, Option.map_map, Nat.zero_add]
  rfl

/-- Nodes of one schema that hold the same in each of its fields are the same. -/
theorem holding_congr (h : ∀ (i : Nat) f, s.fields[i]? = some f →
    f.given? i positional named = f.given? i positional' named') :
    holding home s positional named = holding home s positional' named' := by
  unfold holding
  congr 1
  apply List.map_congr_left
  intro p hp
  rw [FieldSpec.filled, FieldSpec.filled, h p.2 p.1 (List.mem_zipIdx_iff_getElem?.1 hp)]

theorem holding_nil (home : Sealed) (s : NodeSchema) : holding home s [] [] = fresh home s := by
  have hrow : (s.fields.zipIdx.map fun p => p.1.multiplicity.defaultSlot)
      = s.fields.map fun f => f.multiplicity.defaultSlot := by
    conv_rhs => rw [← List.zipIdx_map_fst 0 s.fields, List.map_map]
    rfl
  exact congrArg (mk home s) hrow

/-- To give a value for one more field is to write that field. -/
theorem putSlot_holding (hf : s.fields[i]? = some f)
    (hgiven : f.given? i positional' named' = some v)
    (hothers : ∀ (j : Nat) g, s.fields[j]? = some g → j ≠ i →
      g.given? j positional' named' = g.given? j positional named) :
    (holding home s positional named).putSlot i v.asSlot
      = holding home s positional' named' := by
  have hslots : (holding home s positional named).slots.set i v.asSlot
      = (holding home s positional' named').slots := by
    apply List.ext_getElem?
    intro j
    rw [List.getElem?_set, getElem?_slots_holding, getElem?_slots_holding]
    by_cases hij : i = j
    · subst hij
      have hi : i < (holding home s positional named).slots.length := by
        have hlt := (List.getElem?_eq_some_iff.1 hf).1
        simpa [holding, slots] using hlt
      rw [if_pos rfl, if_pos hi, hf, Option.map_some, FieldSpec.filled, hgiven]
    · rw [if_neg hij]
      cases hg : s.fields[j]? with
      | none => rfl
      | some g =>
          rw [Option.map_some, Option.map_some, FieldSpec.filled, FieldSpec.filled,
            hothers j g hg (Ne.symm hij)]
  rw [putSlot, hslots]
  rfl

/-- The order in which values are named does not matter to the node. -/
theorem holding_perm (h : named.Perm named') (hnames : (named.map Prod.fst).Nodup) :
    holding home s positional named = holding home s positional named' := by
  apply holding_congr
  intro i f _
  rw [FieldSpec.given?, FieldSpec.given?, h.lookup_eq hnames]

/-! ## Writing the values one after the other -/

theorem write_of_accepts {n : Node} (h : f.Accepts n.home v) :
    n.write (f, i) v = .ok (n.putSlot i v.asSlot) :=
  write_eq_ok_iff.2 ⟨_, accept_eq_ok_iff_accepts.2 ⟨h, rfl⟩, rfl⟩

theorem write_of_refuses {n : Node} (h : f.Refuses n.home n.kind v e) :
    n.write (f, i) v = .error e := by
  rw [write, accept_of_refuses h]
  rfl

/-- The places that are left from a field on begin with its own. -/
theorem drop_places (hf : s.fields[i]? = some f) :
    s.fields.zipIdx.drop i = (f, i) :: s.fields.zipIdx.drop (i + 1) := by
  obtain ⟨hi, rfl⟩ := List.getElem?_eq_some_iff.1 hf
  have hlt : i < s.fields.zipIdx.length := by simpa using hi
  rw [List.drop_eq_getElem_cons hlt]
  simp

theorem fillPositional_nil (n : Node) (ps : List (FieldSpec × Nat)) :
    n.fillPositional ps [] = .ok n := by
  cases ps <;> rfl

/-- **Positional values without fault are written**, and leave the node that holds them. -/
theorem fillPositional_append (h : s.Fillable home positional []) (rest : List Value) :
    (fresh home s).fillPositional s.fields.zipIdx (positional ++ rest)
      = (holding home s positional []).fillPositional (s.fields.zipIdx.drop positional.length)
          rest := by
  induction positional using List.reverseRecOn generalizing rest with
  | nil => rw [holding_nil]; rfl
  | append_singleton positional v ih =>
      obtain ⟨hbefore, f, hf, hv⟩ := NodeSchema.fillable_concat_positional_iff.1 h
      have hput : (holding home s positional []).putSlot positional.length v.asSlot
          = holding home s (positional ++ [v]) [] := by
        apply putSlot_holding hf
        · simp [FieldSpec.given?]
        · intro j g _ hj
          rw [FieldSpec.given?, FieldSpec.given?]
          rcases Nat.lt_or_gt_of_ne hj with hj | hj
          · rw [List.getElem?_append_left hj]
          · rw [List.getElem?_eq_none (by simp; omega), List.getElem?_eq_none (by omega)]
      have hwrite : (holding home s positional []).write (f, positional.length) v
          = .ok (holding home s (positional ++ [v]) []) := by
        rw [← hput]
        exact write_of_accepts hv
      rw [List.append_assoc, List.singleton_append, ih hbefore, drop_places hf, fillPositional,
        hwrite, List.length_append, List.length_singleton]

end Node

/-- The places in `filled` are those of the fields whose names are in `taken`. -/
def NodeSchema.Occupies (s : NodeSchema) (filled : List Nat) (taken : List String) : Prop :=
  ∀ name p, s.locate? name = some p → (p.2 ∈ filled ↔ name ∈ taken)

namespace NodeSchema

variable {s : NodeSchema}

/-- The first places are those of the first names. -/
theorem occupies_range (hnames : s.fieldNames.Nodup) (k : Nat) :
    s.Occupies (List.range k) (s.fieldNames.take k) := by
  intro name p hp
  obtain ⟨hf, rfl⟩ := locate?_eq_some hp
  have hname : s.fieldNames[p.2]? = some p.1.name := getElem?_fieldNames hf
  rw [List.mem_range]
  constructor
  · intro hlt
    apply List.mem_of_getElem?
    rw [List.getElem?_take, if_pos hlt, hname]
  · intro hmem
    obtain ⟨j, hj⟩ := List.mem_iff_getElem?.1 hmem
    rw [List.getElem?_take] at hj
    split at hj
    · next hlt =>
        have hi : p.2 < s.fieldNames.length := (List.getElem?_eq_some_iff.1 hname).1
        obtain rfl : p.2 = j := (List.getElem?_inj hi hnames).1 (hname.trans hj.symm)
        exact hlt
    · exact absurd hj (by simp)

/-- A field that is filled takes its name. -/
theorem Occupies.concat {filled : List Nat} {taken : List String} (h : s.Occupies filled taken)
    {name : String} {p : FieldSpec × Nat} (hp : s.locate? name = some p) :
    s.Occupies (p.2 :: filled) (taken ++ [name]) := by
  intro name' q hq
  have hplace : q.2 = p.2 ↔ name' = name := by
    constructor
    · intro hsame
      obtain ⟨hpf, rfl⟩ := locate?_eq_some hp
      obtain ⟨hqf, rfl⟩ := locate?_eq_some hq
      rw [hsame, hpf] at hqf
      rw [Option.some.inj hqf]
    · rintro rfl
      rw [hp] at hq
      rw [Option.some.inj hq]
  rw [List.mem_cons, List.mem_append, List.mem_singleton, hplace, h name' q hq, or_comm]

end NodeSchema

namespace Node

variable {home : Sealed} {s : NodeSchema} {positional : List Value}
  {named : List (String × Value)} {e : TreeError}

/-- **Named values without fault are written**, and leave the node that holds them as well. -/
theorem fillNamed_append (hnames : s.fieldNames.Nodup)
    (h : s.Fillable home positional named) :
    ∃ filled, s.Occupies filled (s.taken positional named) ∧ ∀ rest,
      (holding home s positional []).fillNamed (List.range positional.length) (named ++ rest)
        = (holding home s positional named).fillNamed filled rest := by
  induction named using List.reverseRecOn with
  | nil =>
      refine ⟨List.range positional.length, ?_, fun _ => rfl⟩
      simpa [NodeSchema.taken] using NodeSchema.occupies_range hnames positional.length
  | append_singleton named p ih =>
      obtain ⟨hbefore, hknown, htaken, hfits⟩ := NodeSchema.fillable_concat_iff.1 h
      obtain ⟨filled, hfilled, hrun⟩ := ih hbefore
      obtain ⟨name, v⟩ := p
      obtain ⟨f, hf, rfl⟩ := List.mem_map.1 hknown
      obtain ⟨i, hi⟩ := List.mem_iff_getElem?.1 hf
      have hl : s.locate? f.name = some (f, i) :=
        (NodeSchema.locate?_eq_some_iff hnames).2 ⟨hi, rfl⟩
      have hfree : i ∉ filled := fun hmem => htaken ((hfilled _ _ hl).1 hmem)
      -- neither a positional value nor an earlier name has filled the field
      rw [NodeSchema.taken, List.mem_append, not_or] at htaken
      have hplace : positional[i]? = none := by
        have hrange := (NodeSchema.occupies_range hnames positional.length f.name _ hl).not.2 htaken.1
        rw [List.mem_range, Nat.not_lt] at hrange
        exact List.getElem?_eq_none hrange
      have hnew : named.lookup f.name = none := by
        rw [List.lookup_eq_none_iff]
        intro q hq
        rw [bne_iff_ne]
        intro hsame
        rw [hsame] at htaken
        exact htaken.2 (List.mem_map.2 ⟨q, hq, rfl⟩)
      have hput : (holding home s positional named).putSlot i v.asSlot
          = holding home s positional (named ++ [(f.name, v)]) := by
        apply putSlot_holding hi
        · simp [FieldSpec.given?, hplace, List.lookup_append, hnew]
        · intro j g hg hj
          have hother : g.name ≠ f.name := fun hname =>
            hj (NodeSchema.place_eq_of_name hnames hg hi hname)
          simp [FieldSpec.given?, List.lookup_append, List.lookup_cons, beq_eq_false_iff_ne.2 hother]
      have hlocate : (holding home s positional named).locate f.name = .ok (f, i) :=
        locate_eq_ok_iff.2 hl
      have hwrite : (holding home s positional named).write (f, i) v
          = .ok (holding home s positional (named ++ [(f.name, v)])) := by
        rw [← hput]
        exact write_of_accepts (hfits f hf rfl)
      refine ⟨i :: filled, ?_, ?_⟩
      · have hconcat := hfilled.concat hl
        rw [NodeSchema.taken, List.append_assoc] at hconcat
        simpa [NodeSchema.taken] using hconcat
      · intro rest
        rw [List.append_assoc, List.singleton_append, hrun, fillNamed]
        simp [hlocate, hfree, hwrite]

/-- A named value that offends ends the writing. -/
theorem fillNamed_of_offends {n : Node} (hnames : n.schema.fieldNames.Nodup) {filled : List Nat}
    {taken : List String} (hfilled : n.schema.Occupies filled taken) {p : String × Value}
    (h : n.schema.Offends n.home taken p e) (rest : List (String × Value)) :
    n.fillNamed filled (p :: rest) = .error e := by
  cases h with
  | unknown v hunknown =>
      simp only [fillNamed, locate, NodeSchema.locate?_eq_none_iff.2 hunknown, kind]
  | @duplicate name v hknown htaken =>
      cases hl : n.schema.locate? name with
      | none => exact absurd hknown (NodeSchema.locate?_eq_none_iff.1 hl)
      | some q =>
          have hplace : q.2 ∈ filled := (hfilled _ _ hl).2 htaken
          simp [fillNamed, locate, hl, hplace, kind]
  | @refused f v e hf htaken hrefuses =>
      obtain ⟨i, hi⟩ := List.mem_iff_getElem?.1 hf
      have hl : n.schema.locate? f.name = some (f, i) :=
        (NodeSchema.locate?_eq_some_iff hnames).2 ⟨hi, rfl⟩
      have hplace : i ∉ filled := fun hmem => htaken ((hfilled _ _ hl).1 hmem)
      have hwrite : n.write (f, i) v = .error e := write_of_refuses hrefuses
      simp [fillNamed, locate, hl, hplace, hwrite]

end Node

/-! ## Making a node -/

namespace Sealed

variable {home : Sealed} {kind : String} {s : NodeSchema} {positional : List Value}
  {named : List (String × Value)} {e : TreeError}

/-- A node of a known kind starts fresh and is filled by place, then by name. -/
theorem build_of_get? (hs : home.registry.get? kind = some s) :
    home.build kind positional named =
      if s.fields.length < positional.length then
        .error (.tooManyValues kind s.fields.length positional.length)
      else
        match (Node.fresh home s).fillPositional s.fields.zipIdx positional with
        | .error e => .error e
        | .ok n => n.fillNamed (List.range positional.length) named := by
  have hn : home.node kind = .ok (Node.fresh home s) := node_eq_ok_iff.2 ⟨s, hs, rfl⟩
  simp only [build, hn]
  rfl

/-- Values without fault are written, and what is made next depends on the values that follow. -/
theorem exists_build_append (hnames : s.fieldNames.Nodup)
    (hs : home.registry.get? kind = some s) (h : s.Fillable home positional named) :
    ∃ filled, s.Occupies filled (s.taken positional named) ∧ ∀ rest,
      home.build kind positional (named ++ rest)
        = (Node.holding home s positional named).fillNamed filled rest := by
  obtain ⟨filled, hfilled, hrun⟩ := Node.fillNamed_append hnames h
  refine ⟨filled, hfilled, ?_⟩
  intro rest
  have hplaces : (Node.fresh home s).fillPositional s.fields.zipIdx positional
      = .ok (Node.holding home s positional []) := by
    have happend := Node.fillPositional_append h.of_named []
    rwa [List.append_nil, Node.fillPositional_nil] at happend
  rw [build_of_get? hs, if_neg (Nat.not_lt.2 h.count), hplaces]
  exact hrun rest

/-- **Values without fault make the node that holds them.** -/
theorem build_of_fillable (hnames : s.fieldNames.Nodup) (hs : home.registry.get? kind = some s)
    (h : s.Fillable home positional named) :
    home.build kind positional named = .ok (Node.holding home s positional named) := by
  obtain ⟨filled, -, hrun⟩ := exists_build_append hnames hs h
  have hend := hrun []
  rwa [List.append_nil] at hend

/-- **The first offence is the error.** -/
theorem build_of_firstOffence (hgrown : home.registry.Grown)
    (h : home.FirstOffence kind positional named e) :
    home.build kind positional named = .error e := by
  cases h with
  | kind hs => simp [build, node, Registry.schema, hs, Except.map]
  | count hs hcount => rw [build_of_get? hs, if_pos hcount]
  | @positional s before v rest f e hs hcount hsplit hbefore hf hrefuses =>
      obtain ⟨-, rfl⟩ := hgrown.coherent.get?_eq_some_iff.1 hs
      have hwrite : (Node.holding home s before []).write (f, before.length) v = .error e :=
        Node.write_of_refuses hrefuses
      have hplaces : (Node.fresh home s).fillPositional s.fields.zipIdx positional = .error e := by
        rw [hsplit, Node.fillPositional_append hbefore, Node.drop_places hf, Node.fillPositional,
          hwrite]
      rw [build_of_get? hs, if_neg (Nat.not_lt.2 hcount), hplaces]
  | @named s before p rest e hs hsplit hbefore hoffends =>
      have hnames : s.fieldNames.Nodup :=
        (hgrown.proper _ (hgrown.coherent.get?_eq_some_iff.1 hs).1).names_nodup
      obtain ⟨filled, hfilled, hrun⟩ := exists_build_append hnames hs hbefore
      rw [hsplit, hrun]
      exact Node.fillNamed_of_offends (n := Node.holding home s positional before) hnames hfilled
        hoffends rest

/-- Positional values are without fault, or one of them is the first offence. -/
theorem fillable_or_offence_of_append (hs : home.registry.get? kind = some s)
    (hcount : positional.length ≤ s.fields.length) {before rest : List Value}
    (hsplit : positional = before ++ rest) :
    s.Fillable home before [] ∨ ∃ e, home.FirstOffence kind positional named e := by
  induction before using List.reverseRecOn generalizing rest with
  | nil => exact Or.inl (NodeSchema.fillable_nil home s)
  | append_singleton before v ih =>
      rw [List.append_assoc, List.singleton_append] at hsplit
      rcases ih hsplit with hbefore | hoffence
      · have hlt : before.length < s.fields.length := by
          rw [hsplit, List.length_append, List.length_cons] at hcount
          omega
        have hf := List.getElem?_eq_getElem hlt
        rcases s.fields[before.length].accepts_or_refuses home kind v with hv | ⟨e, he⟩
        · exact Or.inl (NodeSchema.fillable_concat_positional_iff.2 ⟨hbefore, _, hf, hv⟩)
        · exact Or.inr ⟨e, .positional hs hcount hsplit hbefore hf he⟩
      · exact Or.inr hoffence

/-- So are named values after positional ones that are. -/
theorem fillable_or_offence_of_named (hnames : s.fieldNames.Nodup)
    (hs : home.registry.get? kind = some s) (hplaces : s.Fillable home positional [])
    {before rest : List (String × Value)} (hsplit : named = before ++ rest) :
    s.Fillable home positional before ∨ ∃ e, home.FirstOffence kind positional named e := by
  induction before using List.reverseRecOn generalizing rest with
  | nil => exact Or.inl hplaces
  | append_singleton before p ih =>
      rw [List.append_assoc, List.singleton_append] at hsplit
      rcases ih hsplit with hbefore | hoffence
      · rcases s.offends_or_fits home (s.taken positional before) hnames p with ⟨e, he⟩ | hfits
        · exact Or.inr ⟨e, .named hs hsplit hbefore he⟩
        · exact Or.inl (NodeSchema.fillable_concat_iff.2 ⟨hbefore, hfits⟩)
      · exact Or.inr hoffence

/-- All values are without fault, or there is a first offence. -/
theorem fillable_or_offence (hgrown : home.registry.Grown) (kind : String)
    (positional : List Value) (named : List (String × Value)) :
    (∃ s, home.registry.get? kind = some s ∧ s.Fillable home positional named) ∨
      ∃ e, home.FirstOffence kind positional named e := by
  cases hs : home.registry.get? kind with
  | none => exact Or.inr ⟨_, .kind hs⟩
  | some s =>
      have hnames : s.fieldNames.Nodup :=
        (hgrown.proper _ (hgrown.coherent.get?_eq_some_iff.1 hs).1).names_nodup
      by_cases hcount : s.fields.length < positional.length
      · exact Or.inr ⟨_, .count hs hcount⟩
      · have hplaces : s.Fillable home positional [] ∨
            ∃ e, home.FirstOffence kind positional named e :=
          fillable_or_offence_of_append hs (Nat.not_lt.1 hcount) (List.append_nil positional).symm
        rcases hplaces with hplaces | hoffence
        · rcases fillable_or_offence_of_named hnames hs hplaces (List.append_nil named).symm with
            hfillable | hoffence
          · exact Or.inl ⟨s, rfl, hfillable⟩
          · exact Or.inr hoffence
        · exact Or.inr hoffence

/-- **What a node is made of, and why it is not made.**  Values make a node exactly if the kind is known and
they are without fault, and the node then holds each of them in its field and nothing else; so it does not
matter in which order they are named.  Otherwise the error is that of the first offence. -/
theorem build_exact (hgrown : home.registry.Grown) (kind : String) (positional : List Value)
    (named : List (String × Value)) :
    (∀ n, home.build kind positional named = .ok n ↔
      ∃ s, home.registry.get? kind = some s ∧ s.Fillable home positional named ∧
        n = Node.holding home s positional named) ∧
    (∀ e, home.build kind positional named = .error e ↔
      home.FirstOffence kind positional named e) ∧
    ∀ named', named.Perm named' → ∀ n,
      home.build kind positional named = .ok n ↔ home.build kind positional named' = .ok n := by
  have hnames : ∀ {s}, home.registry.get? kind = some s → s.fieldNames.Nodup := fun hs =>
    (hgrown.proper _ (hgrown.coherent.get?_eq_some_iff.1 hs).1).names_nodup
  have hok : ∀ named n, home.build kind positional named = .ok n ↔
      ∃ s, home.registry.get? kind = some s ∧ s.Fillable home positional named ∧
        n = Node.holding home s positional named := by
    intro named n
    constructor
    · intro hn
      rcases fillable_or_offence hgrown kind positional named with ⟨s, hs, hfillable⟩ | ⟨e, he⟩
      · rw [build_of_fillable (hnames hs) hs hfillable] at hn
        exact ⟨s, hs, hfillable, (Except.ok.inj hn).symm⟩
      · rw [build_of_firstOffence hgrown he] at hn
        simp at hn
    · rintro ⟨s, hs, hfillable, rfl⟩
      exact build_of_fillable (hnames hs) hs hfillable
  refine ⟨hok named, ?_, ?_⟩
  · intro e
    constructor
    · intro he
      rcases fillable_or_offence hgrown kind positional named with ⟨s, hs, hfillable⟩ | ⟨e', he'⟩
      · rw [build_of_fillable (hnames hs) hs hfillable] at he
        simp at he
      · rw [build_of_firstOffence hgrown he'] at he
        obtain rfl := Except.error.inj he
        exact he'
    · exact build_of_firstOffence hgrown
  · intro named' hperm n
    rw [hok named, hok named']
    constructor
    · rintro ⟨s, hs, hfillable, rfl⟩
      exact ⟨s, hs, hfillable.perm hperm, Node.holding_perm hperm hfillable.once⟩
    · rintro ⟨s, hs, hfillable, rfl⟩
      exact ⟨s, hs, hfillable.perm hperm.symm, Node.holding_perm hperm.symm hfillable.once⟩

/-- A link is made whichever of its other fields is named first.  Of three values at fault the first is
reported, not the field that is given twice nor the one that there is not. -/
theorem build_exact_outer :
    Scene.Link.home.registry.Grown ∧
      Scene.Link.home.build "link" [.node Scene.Link.middle]
          [("rest", .seq []), ("names", .seq [.text "x"])]
        = .ok Scene.Link.outer ∧
      Scene.Link.home.FirstOffence "link" [.node Scene.Link.middle]
        [("rest", .seq [.node Scene.Link.plain, .null]), ("next", .null), ("weight", .null)]
        (.wrongType ⟨"link", "rest", "None", .elementNotAdmitted 1 "link"⟩) := by
  have hgrown : Scene.Link.home.registry.Grown :=
    .register .empty (s := Scene.Link.schema) rfl
  obtain ⟨-, -, hperm⟩ := build_exact hgrown "link" [.node Scene.Link.middle]
    [("names", .seq [.text "x"]), ("rest", .seq [])]
  obtain ⟨-, herror, -⟩ := build_exact hgrown "link" [.node Scene.Link.middle]
    [("rest", .seq [.node Scene.Link.plain, .null]), ("next", .null), ("weight", .null)]
  exact ⟨hgrown, (hperm _ (.swap _ _ _) _).1 rfl, (herror _).1 rfl⟩

end Sealed

end TreeSchema
