/-
# TreeSchema.Proofs.Node.Setting — what setting a field comes to.

A field takes the value that it is set to or refuses it for a mismatch.  The four mismatches are told
apart by the multiplicity of the field and the form of the value, and two of them ask the types besides;
no two of them hold together, and a value that none of them holds of is stored.  So the answer to a call
is decided by the field and the value alone: what the node holds, in this field or in others, has no say.

Nothing is converted on the way.  The field then holds the value itself, or the very elements of the
sequence, and compares equal to the value that was written whenever that value compares equal to itself.
-/
import TreeSchema.Proofs.Scene.Origin

namespace TreeSchema

/-! ## Mismatches -/

/-- What a mismatch is about: the element at the position that it names, or else the whole value. -/
def Mismatch.offender? : Mismatch → Value → Option Value
  | elementNotAdmitted i _, v => v.asSeq?.bind fun items => items[i]?
  | _, v => some v

namespace FieldSpec

variable {home : Sealed} {f : FieldSpec} {v : Value} {items : List Value} {i : Nat}

/-- The smallest position whose element is a sequence or is admitted by no type of the field. -/
def FirstRefused (home : Sealed) (f : FieldSpec) (items : List Value) (i : Nat) : Prop :=
  (∃ x, items[i]? = some x ∧ (x.isSeq = true ∨ ∀ t ∈ f.types, t.admits home x = false)) ∧
    ∀ j < i, ∀ w, items[j]? = some w → w.isSeq = false ∧ ∃ t ∈ f.types, t.admits home w = true

/-- How a value can fail to match a field. -/
def Mismatches (home : Sealed) (f : FieldSpec) (v : Value) : Mismatch → Prop
  | .expectedSingle => f.multiplicity.isSequence = false ∧ v.isSeq = true
  | .notAdmitted expected =>
    f.multiplicity.isSequence = false ∧ v.isSeq = false ∧
      (∀ t ∈ f.types, t.admits home v = false) ∧ expected = f.typeNames
  | .expectedSequence => f.multiplicity.isSequence = true ∧ v.isSeq = false
  | .elementNotAdmitted i expected =>
    f.multiplicity.isSequence = true ∧
      ∃ items, v = .seq items ∧ f.FirstRefused home items i ∧ expected = f.typeNames

theorem not_takes_iff :
    ¬ f.Takes home v ↔ v.isSeq = true ∨ ∀ t ∈ f.types, t.admits home v = false := by
  simp [Takes, or_iff_not_imp_left]

/-- The first refused position splits a list into elements that are taken, one that is not, and others. -/
theorem firstRefused_iff :
    f.FirstRefused home items i ↔
      ∃ before x rest, items = before ++ x :: rest ∧ before.length = i ∧
        (∀ w ∈ before, f.Takes home w) ∧ ¬ f.Takes home x := by
  constructor
  · rintro ⟨⟨x, hx, hrefused⟩, hbefore⟩
    obtain ⟨hi, rfl⟩ := List.getElem?_eq_some_iff.1 hx
    refine ⟨items.take i, items[i], items.drop (i + 1), ?_, by simp; omega, ?_,
      not_takes_iff.2 hrefused⟩
    · rw [← List.drop_eq_getElem_cons hi, List.take_append_drop]
    · intro w hw
      obtain ⟨j, hj⟩ := List.mem_iff_getElem?.1 hw
      rw [List.getElem?_take] at hj
      split at hj
      · exact hbefore j ‹j < i› w hj
      · cases hj
  · rintro ⟨before, x, rest, rfl, rfl, hbefore, hx⟩
    refine ⟨⟨x, by simp, not_takes_iff.1 hx⟩, fun j hj w hw => ?_⟩
    rw [List.getElem?_append_left hj] at hw
    exact hbefore w (List.mem_of_getElem? hw)

/-- Where a field refuses a value, the value does not match in the way reported, and what is shown is the
value or the element that this is about. -/
theorem Refuses.mismatch {kind : String} {e : TreeError} (h : f.Refuses home kind v e) :
    ∃ reason x, f.Mismatches home v reason ∧ reason.offender? v = some x ∧
      e = .wrongType ⟨kind, f.name, x.render, reason⟩ := by
  cases h with
  | sequence items hm => exact ⟨.expectedSingle, .seq items, ⟨hm, rfl⟩, rfl, rfl⟩
  | type hm hv htypes => exact ⟨.notAdmitted f.typeNames, v, ⟨hm, hv, htypes, rfl⟩, rfl, rfl⟩
  | single hm hv => exact ⟨.expectedSequence, v, ⟨hm, hv⟩, rfl, rfl⟩
  | @element before x rest hm hbefore hx =>
      have hfirst : f.FirstRefused home (before ++ x :: rest) before.length :=
        firstRefused_iff.2 ⟨before, x, rest, rfl, rfl, hbefore, hx⟩
      exact ⟨.elementNotAdmitted before.length f.typeNames, x, ⟨hm, _, rfl, hfirst, rfl⟩,
        by simp [Mismatch.offender?, Value.asSeq?], rfl⟩

/-- A value that does not match is refused for that. -/
theorem exists_refuses_of_mismatches {reason : Mismatch} (h : f.Mismatches home v reason)
    (kind : String) : ∃ shown, f.Refuses home kind v (.wrongType ⟨kind, f.name, shown, reason⟩) := by
  cases reason with
  | expectedSingle =>
      obtain ⟨hm, hv⟩ := h
      cases v with
      | seq items => exact ⟨_, .sequence items hm⟩
      | _ => simp [Value.isSeq] at hv
  | notAdmitted expected =>
      obtain ⟨hm, hv, htypes, rfl⟩ := h
      exact ⟨_, .type hm hv htypes⟩
  | expectedSequence => exact ⟨_, .single h.1 h.2⟩
  | elementNotAdmitted i expected =>
      obtain ⟨hm, items, rfl, hfirst, rfl⟩ := h
      obtain ⟨before, x, rest, rfl, rfl, hbefore, hx⟩ := firstRefused_iff.1 hfirst
      exact ⟨_, .element rest hm hbefore hx⟩

end FieldSpec

/-! ## The slot that a value becomes -/

/-- What a field holds of a value compares equal to the value as the value does to itself. -/
theorem Value.asSlot_equalsValue (v : Value) : v.asSlot.equalsValue v = v.equals v := by
  cases v with
  | seq items => simp [asSlot, Slot.equalsValue, equals, asText?, asSingleton?]
  | _ => rfl

/-! ## Setting a field -/

namespace Node

variable {n n' : Node} {field : String} {f : FieldSpec} {i : Nat} {v : Value} {e : TreeError}

theorem set_eq_error_iff (hl : n.locate field = .ok (f, i)) :
    n.set field v = .error e ↔ f.Refuses n.home n.kind v e := by
  rw [← accept_eq_error_iff]
  simp only [set, hl, write]
  cases n.accept f v <;> simp [Except.map]

theorem exists_set_iff (hl : n.locate field = .ok (f, i)) :
    (∃ n', n.set field v = .ok n') ↔ f.Accepts n.home v := by
  simp only [set, hl, write]
  constructor
  · rintro ⟨n', h⟩
    cases ha : n.accept f v with
    | error e => simp [ha, Except.map] at h
    | ok slot => exact (accept_eq_ok_iff_accepts.1 ha).1
  · intro h
    rw [accept_eq_ok_iff_accepts.2 ⟨h, rfl⟩]
    exact ⟨_, rfl⟩

/-- A field that was set holds what the value becomes. -/
theorem Sound.get_of_set (h : n.Sound) (hset : n.set field v = .ok n') :
    n'.get field = .ok v.asSlot := by
  obtain ⟨⟨f, i⟩, hl, hw⟩ := set_eq_ok_iff.1 hset
  obtain ⟨slot, haccept, rfl⟩ := write_eq_ok_iff.1 hw
  obtain ⟨-, rfl⟩ := accept_eq_ok_iff_accepts.1 haccept
  obtain ⟨s, hs, -⟩ := h.exists_slot (getElem?_of_locate hl)
  exact get_putSlot_self hl hs

/-- A field that there is not is the only one that is unknown. -/
theorem set_eq_unknownField_iff :
    n.set field v = .error (.unknownField n.kind field) ↔ field ∉ n.schema.fieldNames := by
  rw [← NodeSchema.locate?_eq_none_iff]
  cases hl : n.schema.locate? field with
  | none => simp [set, locate, hl]
  | some p =>
      have hlocated : n.locate field = .ok (p.1, p.2) := locate_eq_ok_iff.2 hl
      refine iff_of_false (fun hset => ?_) (by simp)
      obtain ⟨reason, x, -, -, he⟩ := ((set_eq_error_iff hlocated).1 hset).mismatch
      cases he

/-- **What setting a field comes to.**  The field is unknown exactly if the schema has none of the name.
A field that there is takes a value exactly if that fits: a single-valued field one that is no sequence
and that one of its types admits, a sequence field a sequence of such.  It then holds the value as it is,
and compares equal to it if the value does to itself.  Otherwise the call is refused for the one mismatch
that holds, with the text of the value or of the element that the mismatch is about. -/
theorem Reachable.set_exact (h : n.Reachable) (field : String) (v : Value) :
    (n.set field v = .error (.unknownField n.kind field) ↔ field ∉ n.schema.fieldNames) ∧
    ∀ f ∈ n.schema.fields, f.name = field →
      ((∃ n', n.set field v = .ok n') ↔ f.Accepts n.home v) ∧
      (∀ n', n.set field v = .ok n' →
        n'.get field = .ok v.asSlot ∧ (v.equals v = true → v.asSlot.equalsValue v = true)) ∧
      (∀ reason, (∃ e, n.set field v = .error (.wrongType e) ∧ e.reason = reason) ↔
        f.Mismatches n.home v reason) ∧
      ∀ e, n.set field v = .error e → ∃ reason x, reason.offender? v = some x ∧
        e = .wrongType ⟨n.kind, field, x.render, reason⟩ := by
  refine ⟨set_eq_unknownField_iff, ?_⟩
  rintro f hf rfl
  -- names are different, so a look-up by name finds this field and not another one of the name
  obtain ⟨i, hi⟩ := List.mem_iff_getElem?.1 hf
  have hl : n.locate f.name = .ok (f, i) :=
    locate_eq_ok_iff.2 ((NodeSchema.locate?_eq_some_iff h.proper_schema.names_nodup).2 ⟨hi, rfl⟩)
  refine ⟨exists_set_iff hl, ?_, ?_, ?_⟩
  · intro n' hset
    exact ⟨h.deeplySound.sound.get_of_set hset, fun hself => by rw [v.asSlot_equalsValue, hself]⟩
  · intro reason
    constructor
    · rintro ⟨e, hset, rfl⟩
      obtain ⟨reason, x, hmismatch, -, he⟩ := ((set_eq_error_iff hl).1 hset).mismatch
      obtain rfl := TreeError.wrongType.inj he
      exact hmismatch
    · intro hmismatch
      obtain ⟨shown, hrefuses⟩ := FieldSpec.exists_refuses_of_mismatches hmismatch n.kind
      exact ⟨_, (set_eq_error_iff hl).2 hrefuses, rfl⟩
  · intro e hset
    obtain ⟨reason, x, -, hx, he⟩ := ((set_eq_error_iff hl).1 hset).mismatch
    exact ⟨reason, x, hx, he⟩

/-- The links that follow a link are refused for the second of three, a sequence that holds a link; its
names are taken as they are, and a link has no weight. -/
theorem set_exact_outer :
    Scene.Link.outer.Reachable ∧
      (∃ e, Scene.Link.outer.set "rest"
          (.seq [.node Scene.Link.plain, .seq [.node Scene.Link.plain], .null]) = .error (.wrongType e) ∧
        e.reason = .elementNotAdmitted 1 "link") ∧
      (∃ n', Scene.Link.outer.set "names" (.seq [.text "x", .text "y"]) = .ok n' ∧
        n'.get "names" = .ok (.many [.text "x", .text "y"])) ∧
      Scene.Link.outer.set "weight" .null = .error (.unknownField "link" "weight") := by
  have hreachable := Scene.Link.reachable_outer
  refine ⟨hreachable, ?_, ?_, (hreachable.set_exact "weight" .null).1.2 (by decide)⟩
  · obtain ⟨-, -, hreason, -⟩ := (hreachable.set_exact "rest"
        (.seq [.node Scene.Link.plain, .seq [.node Scene.Link.plain], .null])).2
      ⟨"rest", [.node "link"], .zeroOrMore, none⟩ (.tail _ (.head _)) rfl
    refine (hreason (.elementNotAdmitted 1 "link")).2 ⟨rfl, _, rfl, ⟨⟨_, rfl, .inl rfl⟩, ?_⟩, rfl⟩
    intro j hj w hw
    obtain rfl : j = 0 := by omega
    obtain rfl : Value.node Scene.Link.plain = w := by simpa using hw
    exact ⟨rfl, .node "link", .head _, rfl⟩
  · obtain ⟨hok, hheld, -⟩ :=
      (hreachable.set_exact "names" (.seq [.text "x", .text "y"])).2
        ⟨"names", [.identifier], .oneOrMore, none⟩ (.tail _ (.tail _ (.head _))) rfl
    have hfits : FieldSpec.Accepts Scene.Link.outer.home ⟨"names", [.identifier], .oneOrMore, none⟩
        (.seq [.text "x", .text "y"]) := by
      refine ⟨_, rfl, ?_⟩
      simp only [List.forall_mem_cons]
      exact ⟨⟨rfl, .identifier, .head _, by decide⟩, ⟨rfl, .identifier, .head _, by decide⟩, by simp⟩
    obtain ⟨n', hn'⟩ := hok.2 hfits
    exact ⟨n', hn', (hheld n' hn').1⟩

end Node

end TreeSchema
