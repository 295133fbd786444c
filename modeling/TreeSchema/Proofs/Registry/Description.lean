/-
# TreeSchema.Proofs.Registry.Description — descriptions decide nothing.

A schema, a registry or a set of declarations without its descriptions is `bare`.  Registering, validating
and looking up ask for kinds, parents, names, types and multiplicities, all of which a bare schema has; so
each of them answers on what is bare as it did before.  Of two sets of declarations that are the same when
bare, both become registries that are the same when bare, or both are refused for one reason.
-/
import TreeSchema.Declarations

namespace TreeSchema

/-! ## Answers on two sides -/

/-- Two answers are related results, or one error. -/
inductive SameAnswer {ε α β : Type} (R : α → β → Prop) : Except ε α → Except ε β → Prop
  | ok {a : α} {b : β} : R a b → SameAnswer R (.ok a) (.ok b)
  | error (e : ε) : SameAnswer R (.error e) (.error e)

theorem SameAnswer.cases_or {ε α β : Type} {R : α → β → Prop} {x : Except ε α} {y : Except ε β}
    (h : SameAnswer R x y) :
    (∃ e, x = .error e ∧ y = .error e) ∨ ∃ a b, x = .ok a ∧ y = .ok b ∧ R a b := by
  cases h with
  | ok hab => exact .inr ⟨_, _, rfl, rfl, hab⟩
  | error e => exact .inl ⟨e, rfl, rfl⟩

/-- Answers that are one answer for two views have results that are one for these views. -/
theorem SameAnswer.of_map_eq {ε α β γ : Type} {f : α → γ} {g : β → γ} {x : Except ε α}
    {y : Except ε β} (h : x.map f = y.map g) : SameAnswer (fun a b => f a = g b) x y := by
  cases x with
  | error e =>
      cases y with
      | error e' =>
          obtain rfl : e = e' := Except.error.inj h
          exact .error e
      | ok b => cases h
  | ok a =>
      cases y with
      | error e' => cases h
      | ok b => exact .ok (Except.ok.inj h)

/-! ## Schemas -/

/-- A field without its description. -/
def FieldSpec.bare (f : FieldSpec) : FieldSpec := { f with description := none }

namespace FieldSpec

@[simp] theorem name_bare (f : FieldSpec) : f.bare.name = f.name := rfl

@[simp] theorem types_bare (f : FieldSpec) : f.bare.types = f.types := rfl

@[simp] theorem multiplicity_bare (f : FieldSpec) : f.bare.multiplicity = f.multiplicity := rfl

@[simp] theorem typeNames_bare (f : FieldSpec) : f.bare.typeNames = f.typeNames := rfl

@[simp] theorem render_bare (f : FieldSpec) : f.bare.render = f.render := rfl

end FieldSpec

/-- A schema without descriptions. -/
def NodeSchema.bare (s : NodeSchema) : NodeSchema :=
  ⟨s.kind, s.parent, none, s.fields.map FieldSpec.bare⟩

namespace NodeSchema

@[simp] theorem kind_bare (s : NodeSchema) : s.bare.kind = s.kind := rfl

@[simp] theorem parent_bare (s : NodeSchema) : s.bare.parent = s.parent := rfl

@[simp] theorem fields_bare (s : NodeSchema) : s.bare.fields = s.fields.map FieldSpec.bare := rfl

@[simp] theorem references_bare (s : NodeSchema) : s.bare.references = s.references := by
  simp [references, fieldTargets, List.flatMap_map]

@[simp] theorem render_bare (s : NodeSchema) : s.bare.render = s.render := by
  simp [render, Function.comp_def]

/-- Schemas that are the same when bare have fields that are the same when bare. -/
theorem map_bare_fields {s s' : NodeSchema} (h : s.bare = s'.bare) :
    s.fields.map FieldSpec.bare = s'.fields.map FieldSpec.bare :=
  congrArg fields h

end NodeSchema

/-! ## Registries -/

/-- A registry without descriptions. -/
def Registry.bare (r : Registry) : Registry := ⟨r.schemas.map NodeSchema.bare, r.index⟩

namespace Registry

@[simp] theorem schemas_bare (r : Registry) : r.bare.schemas = r.schemas.map NodeSchema.bare := rfl

@[simp] theorem size_bare (r : Registry) : r.bare.size = r.size := by simp [size]

@[simp] theorem contains_bare (r : Registry) (kind : String) :
    r.bare.contains kind = r.contains kind := rfl

theorem get?_bare (r : Registry) (kind : String) :
    r.bare.get? kind = (r.get? kind).map NodeSchema.bare := by
  have hplace : r.bare.place? kind = r.place? kind := rfl
  rw [get?, get?, hplace]
  cases r.place? kind with
  | none => rfl
  | some i => simp

theorem schema_bare (r : Registry) (kind : String) :
    r.bare.schema kind = (r.schema kind).map NodeSchema.bare := by
  rw [schema, schema, get?_bare]
  cases r.get? kind <;> rfl

@[simp] theorem parent?_bare (r : Registry) (kind : String) :
    r.bare.parent? kind = r.parent? kind := by
  rw [parent?, parent?, get?_bare]
  cases r.get? kind <;> rfl

theorem isAWithin_bare (r : Registry) (ancestor : String) (steps : Nat) (kind : String) :
    r.bare.isAWithin ancestor steps kind = r.isAWithin ancestor steps kind := by
  induction steps generalizing kind with
  | zero => rfl
  | succ steps ih => simp only [isAWithin, parent?_bare, ih]

@[simp] theorem isA_bare (r : Registry) (kind ancestor : String) :
    r.bare.isA kind ancestor = r.isA kind ancestor := by
  rw [isA, isA, size_bare, isAWithin_bare]

theorem goesOn_bare (r : Registry) (steps : Nat) (kind : String) :
    r.bare.goesOn steps kind = r.goesOn steps kind := by
  induction steps generalizing kind with
  | zero => rfl
  | succ steps ih => simp only [goesOn, parent?_bare, ih]

@[simp] theorem isEndless_bare (r : Registry) (kind : String) :
    r.bare.isEndless kind = r.isEndless kind := by
  rw [isEndless, isEndless, size_bare, goesOn_bare]

theorem dangling?_bare (r : Registry) (s : NodeSchema) : r.bare.dangling? s.bare = r.dangling? s := by
  simp [dangling?]

/-- Validation judges a bare registry as it judges the registry. -/
theorem validate_bare (r : Registry) : r.bare.validate = r.validate := by
  simp only [validate, schemas_bare, List.findSome?_map, List.find?_map, Function.comp_def,
    dangling?_bare, NodeSchema.kind_bare, isEndless_bare]
  cases r.schemas.findSome? fun s => (r.dangling? s).map (TreeError.danglingReference s.kind) with
  | some e => rfl
  | none => cases r.schemas.find? fun s => r.isEndless s.kind <;> rfl

/-! ### Registering -/

theorem fieldFault?_bare (kind : String) (seen : List String) (fs : List FieldSpec) :
    fieldFault? kind seen (fs.map FieldSpec.bare) = fieldFault? kind seen fs := by
  induction fs generalizing seen with
  | nil => rfl
  | cons f rest ih => simp only [List.map_cons, fieldFault?, FieldSpec.name_bare, FieldSpec.types_bare, ih]

theorem fault?_bare (r : Registry) (s : NodeSchema) : r.bare.fault? s.bare = r.fault? s := by
  simp only [fault?, NodeSchema.kind_bare, NodeSchema.parent_bare, NodeSchema.fields_bare,
    contains_bare, fieldFault?_bare]

theorem register_bare (r : Registry) (s : NodeSchema) :
    r.bare.register s.bare = (r.register s).map bare := by
  rw [register, register, fault?_bare]
  cases r.fault? s with
  | some e => rfl
  | none => simp [bare, Except.map]

theorem registerAll_bare (r : Registry) (ss : List NodeSchema) :
    r.bare.registerAll (ss.map NodeSchema.bare) = (r.registerAll ss).map bare := by
  induction ss generalizing r with
  | nil => rfl
  | cons s rest ih =>
      rw [List.map_cons, registerAll, registerAll, register_bare]
      cases r.register s with
      | error e => rfl
      | ok r' => exact ih r'

end Registry

/-! ## Declarations -/

/-- What a set declares, without the descriptions: neither its version nor its name matters. -/
def Declarations.bare (d : Declarations) : Declarations := ⟨"", none, d.nodes.map NodeSchema.bare⟩

namespace Declarations

/-- A bare set becomes the registry of the set made bare, or is refused as the set is. -/
theorem toRegistry_bare (d : Declarations) : d.bare.toRegistry = d.toRegistry.map Registry.bare := by
  have hall : Registry.empty.registerAll d.bare.nodes
      = (Registry.empty.registerAll d.nodes).map Registry.bare :=
    Registry.registerAll_bare Registry.empty d.nodes
  rw [toRegistry, toRegistry, hall]
  cases Registry.empty.registerAll d.nodes with
  | error e => rfl
  | ok r =>
      simp only [Except.map, Registry.validate_bare]
      cases r.validate <;> rfl

/-- **Descriptions do not matter to a registry**: sets that are the same when bare become registries that
are the same when bare, or are refused for one reason. -/
theorem toRegistry_of_bare_eq {d d' : Declarations} (h : d.bare = d'.bare) :
    SameAnswer (fun r r' => r.bare = r'.bare) d.toRegistry d'.toRegistry := by
  refine .of_map_eq ?_
  rw [← toRegistry_bare, ← toRegistry_bare, h]

end Declarations

end TreeSchema
