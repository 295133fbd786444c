/-
# TreeSchema.Proofs.Value.Rendering — the text of a value identifies it.

The text of a value is that of its literal, and literals are read from their texts in one way only.  So
two values have one text exactly when they have one literal, if neither holds a float.  What remains is to
compare literals with values.  A literal forgets what equality forgets, but also whether a sequence
stands in a single-valued field or in a sequence field; the schema knows, because a single-valued field
never holds a sequence.
-/
import TreeSchema.Proofs.Node.Interchange
import TreeSchema.Proofs.Scene.Origin
import TreeSchema.Proofs.Value.Domain
import TreeSchema.Proofs.Value.Literal

namespace TreeSchema

/-! ## The literals of values -/

mutual

/-- What the text of a value tells. -/
def Value.literal : Value → Literal
  | .null => .word .null
  | .bool b => .word (.ofBool b)
  | .int n => .int n.toInt
  | .float x => .float x
  | .text s => .text s
  | .identifier i => .text i.text
  | .singleton s => .word s
  | .seq items => .seq (Value.literals items)
  | .node n => Node.literal n

def Value.literals : List Value → List Literal
  | [] => []
  | v :: vs => Value.literal v :: Value.literals vs

/-- What the text of a slot tells. -/
def Slot.literal : Slot → Literal
  | .unset => .unset
  | .single v => Value.literal v
  | .many items => .seq (Value.literals items)

def Slot.literalFields : List FieldSpec → List Slot → List (String × Literal)
  | f :: fs, s :: ss => (f.name, Slot.literal s) :: Slot.literalFields fs ss
  | _, _ => []

/-- What the text of a node tells. -/
def Node.literal : Node → Literal
  | .mk _ schema slots => .node schema.kind (Slot.literalFields schema.fields slots)

end

theorem Value.literals_eq_map (vs : List Value) : literals vs = vs.map literal := by
  induction vs with
  | nil => rfl
  | cons v vs ih => rw [literals, ih, List.map_cons]

theorem Slot.literalFields_eq_map (fs : List FieldSpec) (ss : List Slot) :
    literalFields fs ss = (fs.zip ss).map fun p => (p.1.name, p.2.literal) := by
  induction fs generalizing ss with
  | nil => simp [literalFields]
  | cons f fs ih =>
      cases ss with
      | nil => rfl
      | cons s ss => rw [literalFields, ih, List.zip_cons_cons, List.map_cons]

theorem Node.literal_eq (n : Node) :
    n.literal = .node n.kind (n.fields.map fun p => (p.1.name, p.2.literal)) := by
  obtain ⟨home, schema, slots⟩ := n
  rw [literal, Slot.literalFields_eq_map]
  rfl

/-! ## The text of a value is that of its literal -/

theorem toList_separated (parts : List String) :
    (", ".intercalate parts).toList = Literal.separated (parts.map String.toList) := by
  rw [String.toList_intercalate]
  rfl

mutual

theorem Value.toList_render : ∀ v : Value, v.render.toList = v.literal.chars
  | .null => by decide
  | .bool true => by decide
  | .bool false => by decide
  | .int n => rfl
  | .float x => rfl
  | .text s => by
      rw [Value.render, Text.quoted, String.toList_ofList]
      rfl
  | .identifier i => by
      rw [Value.render, i.render_eq_quoted, Text.quoted, String.toList_ofList]
      rfl
  | .singleton s => rfl
  | .seq items => by
      rw [Value.render, String.toList_append, String.toList_append, toList_separated,
        Value.map_toList_renderList items]
      rfl
  | .node n => Node.toList_render n

theorem Value.map_toList_renderList : ∀ vs : List Value,
    (Value.renderList vs).map String.toList = Literal.charsItems (Value.literals vs)
  | [] => rfl
  | v :: vs => by
      rw [Value.renderList, List.map_cons, Value.toList_render v, Value.map_toList_renderList vs]
      rfl

theorem Slot.toList_render : ∀ s : Slot, s.render.toList = s.literal.chars
  | .unset => by decide
  | .single v => Value.toList_render v
  | .many items => by
      rw [Slot.render, String.toList_append, String.toList_append, toList_separated,
        Value.map_toList_renderList items]
      rfl

theorem Slot.map_toList_renderFields : ∀ (fs : List FieldSpec) (ss : List Slot),
    (Slot.renderFields fs ss).map String.toList =
      Literal.charsFields (Slot.literalFields fs ss)
  | [], _ => by simp [Slot.renderFields, Slot.literalFields, Literal.charsFields]
  | _ :: _, [] => rfl
  | f :: fs, s :: ss => by
      rw [Slot.renderFields, List.map_cons, String.toList_append, String.toList_append,
        Slot.toList_render s, Slot.map_toList_renderFields fs ss, Slot.literalFields,
        Literal.charsFields, List.append_assoc]
      rfl

theorem Node.toList_render : ∀ n : Node, n.render.toList = n.literal.chars
  | .mk _ schema slots => by
      rw [Node.render, String.toList_append, String.toList_append, String.toList_append,
        toList_separated, Slot.map_toList_renderFields schema.fields slots, Node.literal,
        Literal.chars]
      simp

end

/-! ## Legible values -/

/-- No float occurs in the value, at any depth. -/
def Value.FloatFree (v : Value) : Prop := ∀ x, ¬ v.Holds (.float x)

namespace Value.FloatFree

theorem of_mem {items : List Value} (h : (seq items).FloatFree) {v : Value} (hv : v ∈ items) :
    v.FloatFree := fun x hx => h x (.element hv hx)

theorem of_mem_slots {n : Node} (h : (node n).FloatFree) {s : Slot} (hs : s ∈ n.slots) {v : Value}
    (hv : v ∈ s.values) : v.FloatFree := fun x hx => h x (.slot hs hv hx)

/-- A value that is no float is free of floats when its parts are. -/
theorem of_parts {v : Value} (hv : ∀ x, v ≠ .float x) (h : ∀ u ∈ v.parts, u.FloatFree) :
    v.FloatFree := by
  intro x hx
  rcases holds_iff.1 hx with hx | ⟨p, hp, hx⟩
  · exact hv x hx.symm
  · exact h p hp x hx

end Value.FloatFree

theorem Slot.legible_literal {s : Slot} (h : ∀ v ∈ s.values, v.literal.Legible) :
    s.literal.Legible := by
  cases s with
  | unset => exact .unset
  | single v => exact h v (List.mem_singleton_self v)
  | many items =>
      refine .seq ?_
      rw [Value.literals_eq_map, List.forall_mem_map]
      exact h

/-- A value without floats is legible when its nodes follow proper schemas. -/
theorem Value.legible_literal {v : Value} (hfloat : v.FloatFree)
    (hproper : ∀ m, v.Reaches m → m.schema.Proper) : v.literal.Legible := by
  induction v using Value.parts_induction with
  | step v ih =>
      cases v with
      | float x => exact absurd (.here _) (hfloat x)
      | seq items =>
          refine .seq ?_
          rw [literals_eq_map, List.forall_mem_map]
          intro v hv
          exact ih v hv (hfloat.of_mem hv) fun m hm => hproper m (.element hv hm)
      | node n =>
          have hschema := hproper n (.here n)
          have hslot : ∀ s ∈ n.slots, s.literal.Legible := by
            intro s hs
            refine Slot.legible_literal fun v hv => ?_
            exact ih v (List.mem_flatMap.2 ⟨s, hs, hv⟩) (hfloat.of_mem_slots hs hv)
              fun m hm => hproper m (.slot hs hv hm)
          change n.literal.Legible
          rw [n.literal_eq]
          refine .node hschema.isIdentifier_kind ?_ ?_
          · rw [List.forall_mem_map]
            exact fun p hp => hschema.isIdentifier_name p.1 (List.of_mem_zip hp).1
          · rw [List.forall_mem_map]
            exact fun p hp => hslot p.2 (List.of_mem_zip hp).2
      | _ => constructor

/-! ## Equal literals and equal values -/

namespace Value

variable {v : Value}

theorem literal_eq_text_iff {s : String} : v.literal = .text s ↔ v.asText? = some s := by
  cases v <;> simp [literal, asText?, Node.literal_eq]

theorem literal_eq_word_iff {s : Singleton} : v.literal = .word s ↔ v.asSingleton? = some s := by
  cases v <;> simp [literal, asSingleton?, Node.literal_eq]

theorem literal_eq_int_iff {n : Int64} : v.literal = .int n.toInt ↔ v = .int n := by
  cases v <;> simp [literal, Node.literal_eq, Int64.toInt_inj]

theorem literal_eq_seq_iff {ls : List Literal} :
    v.literal = .seq ls ↔ ∃ vs, v = .seq vs ∧ literals vs = ls := by
  cases v <;> simp [literal, Node.literal_eq]

theorem literal_eq_node_iff {n : Node} :
    v.literal = n.literal ↔ ∃ m, v = .node m ∧ m.literal = n.literal := by
  cases v <;> simp [literal, Node.literal_eq n]

/-- No value is written like a field that holds nothing. -/
theorem literal_ne_unset : v.literal ≠ .unset := by
  cases v <;> simp [literal, Node.literal_eq]

/-- Sequences have one literal when they are equal, if this is so for their elements. -/
theorem literals_eq_iff {vs ws : List Value}
    (h : ∀ v ∈ vs, ∀ w ∈ ws, v.literal = w.literal ↔ v.equals w = true) :
    literals vs = literals ws ↔ listEquals vs ws = true := by
  induction vs generalizing ws with
  | nil => cases ws <;> simp [literals, listEquals]
  | cons v vs ih =>
      cases ws with
      | nil => simp [literals, listEquals]
      | cons w ws =>
          have hrest := ih fun v' hv w' hw =>
            h v' (List.mem_cons_of_mem _ hv) w' (List.mem_cons_of_mem _ hw)
          simp [literals, listEquals, h v List.mem_cons_self w List.mem_cons_self, hrest]

end Value

/-- What two slots of one field hold has one literal when it is equal: whether a sequence stands in the
field as a value or as its elements, the field decides. -/
theorem Slot.literal_eq_iff {home : Sealed} {f : FieldSpec} {s t : Slot} (hs : s.Fits home f)
    (ht : t.Fits home f)
    (h : ∀ v ∈ s.values, ∀ w ∈ t.values, v.literal = w.literal ↔ v.equals w = true) :
    s.literal = t.literal ↔ s.equals t = true := by
  cases hm : f.multiplicity.isSequence with
  | true =>
      obtain ⟨vs, rfl, -⟩ := (fits_iff_of_sequence hm).1 hs
      obtain ⟨ws, rfl, -⟩ := (fits_iff_of_sequence hm).1 ht
      simp only [literal, equals, Literal.seq.injEq]
      exact Value.literals_eq_iff h
  | false =>
      rcases (fits_iff_of_single hm).1 hs with rfl | ⟨v, rfl, -⟩ <;>
        rcases (fits_iff_of_single hm).1 ht with rfl | ⟨w, rfl, -⟩
      · simp [equals]
      · simp [literal, equals, Value.literal_ne_unset.symm]
      · simp [literal, equals, Value.literal_ne_unset]
      · simp only [literal, equals]
        exact h v (List.mem_singleton_self v) w (List.mem_singleton_self w)

/-- Rows of slots behind the same fields, field by field. -/
theorem Slot.map_literal_eq_iff {fs : List FieldSpec} {ss ts : List Slot}
    (hs : ss.length = fs.length) (ht : ts.length = fs.length)
    (h : ∀ f s t, (f, s) ∈ fs.zip ss → (f, t) ∈ fs.zip ts →
      (s.literal = t.literal ↔ s.equals t = true)) :
    ((fs.zip ss).map fun p => (p.1.name, p.2.literal))
        = ((fs.zip ts).map fun p => (p.1.name, p.2.literal)) ↔ listEquals ss ts = true := by
  induction fs generalizing ss ts with
  | nil =>
      obtain rfl := List.length_eq_zero_iff.1 hs
      obtain rfl := List.length_eq_zero_iff.1 ht
      simp [listEquals]
  | cons f fs ih =>
      obtain ⟨s, ss, rfl⟩ := List.exists_cons_of_length_eq_add_one hs
      obtain ⟨t, ts, rfl⟩ := List.exists_cons_of_length_eq_add_one ht
      have hrest := ih (by simpa using hs) (by simpa using ht) fun g u v hu hv =>
        h g u v (List.mem_cons_of_mem _ hu) (List.mem_cons_of_mem _ hv)
      have hhead := h f s t List.mem_cons_self List.mem_cons_self
      simp [listEquals, hhead, hrest]

/-- Two sound nodes of one registry have one literal when they are equal, if this is so for what their
slots hold. -/
theorem Node.literal_eq_iff {n m : Node} (hn : n.Sound) (hm : m.Sound) (hhome : n.home = m.home)
    (h : ∀ s ∈ n.slots, ∀ v ∈ s.values, ∀ t ∈ m.slots, ∀ w ∈ t.values,
      v.literal = w.literal ↔ v.equals w = true) :
    n.literal = m.literal ↔ n.equals m = true := by
  rw [n.literal_eq, m.literal_eq, equals_iff, Literal.node.injEq]
  refine and_congr_right fun hkind => ?_
  have hschema := hn.schema_eq hm hhome hkind
  have hfields : m.fields = n.schema.fields.zip m.slots := by rw [hschema]; rfl
  rw [hfields]
  refine Slot.map_literal_eq_iff hn.length_slots (hschema ▸ hm.length_slots) ?_
  intro f s t hs ht
  rw [← hfields] at ht
  have hfits : t.Fits n.home f := hhome ▸ hm.fits (f, t) ht
  refine Slot.literal_eq_iff (hn.fits (f, s) hs) hfits ?_
  exact fun v hv w hw => h s (List.of_mem_zip hs).2 v hv t (List.of_mem_zip ht).2 w hw

/-- **Values without floats have one literal exactly when they are equal**, if all their nodes are sound
and belong to one registry. -/
theorem Value.literal_eq_iff {home : Sealed} {v w : Value} (hv : v.FloatFree)
    (hvhome : v.Belongs home) (hwhome : w.Belongs home) :
    v.literal = w.literal ↔ v.equals w = true := by
  induction v using Value.parts_induction generalizing w with
  | step v ih =>
      rw [eq_comm]
      cases v with
      | null => exact literal_eq_word_iff.trans (equals_iff_of_asSingleton? rfl).symm
      | bool b => exact literal_eq_word_iff.trans (equals_iff_of_asSingleton? rfl).symm
      | singleton s => exact literal_eq_word_iff.trans (equals_iff_of_asSingleton? rfl).symm
      | text s => exact literal_eq_text_iff.trans (equals_iff_of_asText? rfl).symm
      | identifier i => exact literal_eq_text_iff.trans (equals_iff_of_asText? rfl).symm
      | int n => exact literal_eq_int_iff.trans int_equals_iff.symm
      | float x => exact absurd (.here _) (hv x)
      | seq vs =>
          rw [literal, literal_eq_seq_iff, seq_equals_iff]
          refine exists_congr fun ws => and_congr_right ?_
          rintro rfl
          rw [eq_comm]
          refine literals_eq_iff fun v hmem w hmem' => ?_
          exact ih v hmem (hv.of_mem hmem) (fun m hm => hvhome m (.element hmem hm))
            fun m hm => hwhome m (.element hmem' hm)
      | node n =>
          rw [literal, literal_eq_node_iff, node_equals_iff]
          refine exists_congr fun m => and_congr_right ?_
          rintro rfl
          rw [eq_comm]
          obtain ⟨hn, hnhome⟩ := hvhome n (.here n)
          obtain ⟨hm, hmhome⟩ := hwhome m (.here m)
          refine Node.literal_eq_iff hn hm (hnhome.trans hmhome.symm) ?_
          intro s hs v hmem t ht w hmem'
          exact ih v (List.mem_flatMap.2 ⟨s, hs, hmem⟩) (hv.of_mem_slots hs hmem)
            (hvhome.of_mem_slots hs hmem) (hwhome.of_mem_slots ht hmem')

/-! ## The main result -/

/-- **The text of a value identifies it.**  Take two values without floats, whose nodes at any depth can
be shown by runs and belong to one sealed registry.  They are written alike exactly when they are
equal. -/
theorem Value.render_eq_iff_equals {home : Sealed} {v w : Value} (hv : v.FloatFree)
    (hw : w.FloatFree) (hvnodes : ∀ m, v.Reaches m → m.Reachable ∧ m.home = home)
    (hwnodes : ∀ m, w.Reaches m → m.Reachable ∧ m.home = home) :
    v.render = w.render ↔ v.equals w = true := by
  have hproper : ∀ m : Node, m.Reachable → m.schema.Proper := by
    intro m hm
    have hknown := hm.deeplySound.sound.schema_known
    exact hm.grown.proper _ (hm.grown.coherent.get?_eq_some_iff.1 hknown).1
  have hvlegible := legible_literal hv fun m hm => hproper m (hvnodes m hm).1
  have hwlegible := legible_literal hw fun m hm => hproper m (hwnodes m hm).1
  have hbelongs : ∀ {u : Value}, (∀ m, u.Reaches m → m.Reachable ∧ m.home = home) →
      u.Belongs home := fun hu m hm => ⟨(hu m hm).1.deeplySound.sound, (hu m hm).2⟩
  calc v.render = w.render
      ↔ v.literal.chars = w.literal.chars := by
        rw [← String.toList_inj, toList_render, toList_render]
    _ ↔ v.literal = w.literal := by
        refine ⟨fun h => ?_, fun h => by rw [h]⟩
        exact (Literal.Legible.oneReading _ _ hvlegible hwlegible [] [] Literal.stops_nil
          Literal.stops_nil (by rw [h])).1
    _ ↔ v.equals w = true := literal_eq_iff hv (hbelongs hvnodes) (hbelongs hwnodes)

/-- A named link is written like the link whose name is wrapped. -/
theorem render_named_wrapped :
    ((Value.node Scene.Link.named).FloatFree ∧ (Value.node Scene.Link.wrapped).FloatFree) ∧
      (Value.node Scene.Link.named).render = (Value.node Scene.Link.wrapped).render := by
  have hfree : ∀ (n : Node) (v : Value), (Value.node n).parts = [v] → v.parts = [] →
      (∀ x, v ≠ .float x) → (Value.node n).FloatFree := by
    intro n v hn hv hx
    refine .of_parts (by simp) ?_
    rw [hn, List.forall_mem_singleton]
    exact .of_parts hx (by simp [hv])
  have hnamed := hfree Scene.Link.named (.text "x") rfl rfl (by simp)
  have hwrapped := hfree Scene.Link.wrapped (.identifier Scene.Link.wrappedName) rfl rfl (by simp)
  -- the only node in each of them is the link itself
  have hnodes : ∀ n : Node, n.Reachable → n.home = Scene.Link.home →
      (∀ v ∈ (Value.node n).parts, ∀ m, ¬ v.Reaches m) →
        ∀ m, (Value.node n).Reaches m → m.Reachable ∧ m.home = Scene.Link.home := by
    intro n hn hhome hparts m hm
    rcases Value.reaches_node_iff.1 hm with rfl | ⟨s, hs, v, hv, hreach⟩
    · exact ⟨hn, hhome⟩
    · exact absurd hreach (hparts v (List.mem_flatMap.2 ⟨s, hs, hv⟩) m)
  refine ⟨⟨hnamed, hwrapped⟩, ?_⟩
  refine (Value.render_eq_iff_equals hnamed hwrapped
    (hnodes _ Scene.Link.reachable_named rfl ?_)
    (hnodes _ Scene.Link.reachable_wrapped rfl ?_)).2 (by decide +kernel)
  · intro v hv m hm
    obtain rfl : v = .text "x" := List.mem_singleton.1 hv
    cases hm
  · intro v hv m hm
    obtain rfl : v = .identifier Scene.Link.wrappedName := List.mem_singleton.1 hv
    cases hm

end TreeSchema
